import Mathlib.Data.List.Induction
import TagTemplate.Proofs.Lockstep.Uniform

/-!
# The history of a page

What happens to the blocks and layouts of a page is a course of events: blocks are met, layouts are
asked for and taken, regions are shown. The registry is at every moment what the events so far make
of it, whichever tags, includes, layouts and host functions they come from. The history that the
registry keeps of them decides nothing.
-/

namespace TagTemplate

open Markup (Node)
open TagTemplate.Action

namespace PageEvent

def blockFor? (region : String) : PageEvent → Option Block
  | block name b => if name = region then some b else none
  | _ => none

def request? : PageEvent → Option String
  | request name => some name
  | _ => none

def isTake : PageEvent → Bool
  | take _ => true
  | _ => false

end PageEvent

def firstBlock (region : String) (events : List PageEvent) : Option Block :=
  events.findSome? (PageEvent.blockFor? region)

def firstRequest (events : List PageEvent) : Option String := events.findSome? PageEvent.request?

theorem firstBlock_concat (region : String) (events : List PageEvent) (e : PageEvent) :
    firstBlock region (events ++ [e]) = (firstBlock region events).or (e.blockFor? region) := by
  unfold firstBlock
  rw [List.findSome?_append, List.findSome?_singleton]

theorem firstRequest_concat (events : List PageEvent) (e : PageEvent) :
    firstRequest (events ++ [e]) = (firstRequest events).or e.request? := by
  unfold firstRequest
  rw [List.findSome?_append, List.findSome?_singleton]

def sinceTake (events : List PageEvent) : List PageEvent :=
  (events.reverse.takeWhile (!·.isTake)).reverse

theorem sinceTake_concat (events : List PageEvent) (e : PageEvent) :
    sinceTake (events ++ [e]) = if e.isTake then [] else sinceTake events ++ [e] := by
  unfold sinceTake
  rw [List.reverse_concat]
  cases e with
  | take => rfl
  | _ => exact List.reverse_cons

namespace Registry

def events (r : Registry) : List PageEvent := r.history.reverse

def next (r : Registry) : PageEvent → Registry
  | .block region b => r.addBlock region b
  | .request name => r.requestLayout name
  | .take _ => r.takeLayout.2
  | .region name _ => (r.findBlock name).2

/-- The event can be what happens next: a block has a region and a layout a name, and what is taken
or shown is what the registry has. -/
def Enabled (r : Registry) : PageEvent → Prop
  | .block region _ => region ≠ ""
  | .request name => name ≠ ""
  | .take taken => taken = r.pending
  | .region name shown => shown = r.blocks.lookup name

/-- The registry that events make of an empty one. -/
def after (events : List PageEvent) : Registry := events.foldl next {}

theorem after_concat (events : List PageEvent) (e : PageEvent) :
    after (events ++ [e]) = (after events).next e :=
  List.foldl_concat _ _ _ _

theorem events_addBlock (r : Registry) (region : String) (b : Block) :
    (r.addBlock region b).events = r.events ++ [.block region b] := List.reverse_cons

theorem events_requestLayout (r : Registry) (name : String) :
    (r.requestLayout name).events = r.events ++ [.request name] := List.reverse_cons

theorem events_takeLayout (r : Registry) :
    r.takeLayout.2.events = r.events ++ [.take r.pending] := List.reverse_cons

theorem events_findBlock (r : Registry) (region : String) :
    (r.findBlock region).2.events = r.events ++ [.region region (r.blocks.lookup region)] :=
  List.reverse_cons

theorem blocks_next (r : Registry) (e : PageEvent) : r.blocks <+: (r.next e).blocks := by
  cases e with
  | block region b =>
    change r.blocks <+: if OrderedMap.has r.blocks region then r.blocks else _
    split
    · exact List.prefix_refl _
    · exact List.prefix_append _ _
  | _ => exact List.prefix_refl _

theorem blocks_after_append (earlier more : List PageEvent) :
    (after earlier).blocks <+: (after (earlier ++ more)).blocks := by
  induction more using List.reverseRecOn with
  | nil => exact (List.append_nil earlier).symm ▸ List.prefix_refl _
  | append_singleton more e ih =>
    rw [← List.append_assoc, after_concat]
    exact ih.trans (blocks_next _ e)

theorem nodup_after (events : List PageEvent) : ((after events).blocks.map Prod.fst).Nodup := by
  induction events using List.reverseRecOn with
  | nil => exact List.nodup_nil
  | append_singleton events e ih =>
    rw [after_concat]
    cases e with
    | block region b =>
      change (List.map Prod.fst (if OrderedMap.has _ region then _ else _)).Nodup
      split
      · exact ih
      · next hnew =>
        have hlookup := Option.not_isSome_iff_eq_none.1 hnew
        have habsent : ∀ p ∈ (after events).blocks, region ≠ p.1 := by
          intro p hp
          simpa using List.lookup_eq_none_iff.1 hlookup p hp
        rw [List.map_append, List.nodup_append]
        refine ⟨ih, by simp, ?_⟩
        intro name hname other hother
        obtain ⟨p, hp, rfl⟩ := List.mem_map.1 hname
        rw [List.map_singleton, List.mem_singleton] at hother
        exact hother ▸ (habsent p hp).symm
    | _ => exact ih

theorem lookup_after (events : List PageEvent) (region : String) :
    (after events).blocks.lookup region = firstBlock region events := by
  induction events using List.reverseRecOn with
  | nil => rfl
  | append_singleton events e ih =>
    rw [after_concat, firstBlock_concat, ← ih]
    cases e with
    | block name b =>
      change ((after events).addBlock name b).blocks.lookup region = _
      rw [lookup_addBlock]
      by_cases hn : name = region
      · simp [PageEvent.blockFor?, hn]
      · simp [PageEvent.blockFor?, hn, Ne.symm hn]
    | _ => exact Option.or_none.symm

theorem pending_after (events : List PageEvent) :
    (after events).pending = firstRequest (sinceTake events) := by
  induction events using List.reverseRecOn with
  | nil => rfl
  | append_singleton events e ih =>
    rw [after_concat, sinceTake_concat]
    cases e with
    | take => rfl
    | request name =>
      change (after events).pending.or (some name) = firstRequest (sinceTake events ++ _)
      rw [firstRequest_concat, ih]
      rfl
    | _ =>
      change (after events).pending = firstRequest (sinceTake events ++ _)
      rw [firstRequest_concat, ih]
      exact Option.or_none.symm

/-- A registry that has come about step by step: it is what its own events make of an empty one, and
each of them could happen at its time. -/
structure Faithful (r : Registry) : Prop where
  replay : r = after r.events
  enabled : ∀ earlier e later, r.events = earlier ++ e :: later → (after earlier).Enabled e

namespace Faithful

theorem empty : Faithful {} := by
  refine ⟨rfl, fun earlier e later he => ?_⟩
  exact absurd he (List.append_ne_nil_of_right_ne_nil _ (List.cons_ne_nil _ _)).symm

variable {r : Registry} (h : r.Faithful)

include h

theorem concat {r' : Registry} {e : PageEvent} (hnext : r' = r.next e)
    (hevents : r'.events = r.events ++ [e]) (henabled : r.Enabled e) : r'.Faithful := by
  constructor
  · rw [hevents, after_concat, ← h.replay, hnext]
  · intro earlier e' later he
    rw [hevents] at he
    rcases List.eq_nil_or_concat later with rfl | ⟨later, last, rfl⟩
    · -- it is the last event, so all others came before it
      obtain ⟨rfl, heq⟩ := List.append_inj' he rfl
      cases heq
      exact h.replay ▸ henabled
    · rw [List.concat_eq_append, ← List.cons_append, ← List.append_assoc] at he
      exact h.enabled earlier e' later (List.append_inj' he rfl).1

theorem addBlock {region : String} (hr : region ≠ "") (b : Block) :
    (r.addBlock region b).Faithful :=
  h.concat (e := .block region b) rfl (events_addBlock r region b) hr

theorem requestLayout {name : String} (hn : name ≠ "") : (r.requestLayout name).Faithful :=
  h.concat (e := .request name) rfl (events_requestLayout r name) hn

theorem takeLayout : r.takeLayout.2.Faithful :=
  h.concat (e := .take r.pending) rfl (events_takeLayout r) rfl

theorem findBlock (region : String) : (r.findBlock region).2.Faithful :=
  h.concat (e := .region region _) rfl (events_findBlock r region) rfl

end Faithful

end Registry

namespace Lockstep

variable {P : Registry → Prop} {α : Type} {a : Action α} {s : State}

def keeping (P : Registry → Prop) : Lockstep := .invariant (fun s => P s.registry) fun _ => True

theorem keeping_closed (P : Registry → Prop) : (keeping P).Closed :=
  .of_invariant (fun hs _ _ _ => hs) (fun _ => trivial) fun _ _ _ _ => trivial

theorem agrees_keeping (h : ∀ s, P s.registry → P (perform a s).2.registry) :
    (keeping P).Agrees a a := by
  rintro s _ ⟨rfl, hs⟩
  have hkept := h s hs
  generalize perform a s = r at hkept ⊢
  obtain ⟨_ | x, t⟩ := r
  · exact .error trivial ⟨rfl, hkept⟩
  · exact .ok rfl ⟨rfl, hkept⟩

theorem Relates.kept {Q : α → α → Prop} (h : (keeping P).Relates Q a a) (hs : P s.registry) :
    P (perform a s).2.registry := by
  have ho := h s s ⟨rfl, hs⟩
  generalize perform a s = r at ho
  cases ho with
  | ok _ hst => exact hst.2
  | error _ hst => exact hst.2
  | excused he => exact he.elim

theorem keeping_template (env : Environment) (name : String) :
    (keeping P).Agrees (env.template name) (env.template name) := by
  refine agrees_keeping fun s hs => ?_
  obtain ⟨templates, host, hlooked, -⟩ := env.looked_eq name s
  rw [env.perform_template, hlooked]
  exact hs

theorem keeping_depth {s t : State} (hs : (keeping P).states s t) (d : Nat) :
    (keeping P).states { s with depth := d } { t with depth := d } := by
  obtain ⟨rfl, hs⟩ := hs
  exact ⟨rfl, hs⟩

end Lockstep

namespace Registry

/-- A property of registries that no tag takes away. -/
structure Stable (P : Registry → Prop) : Prop where
  request : ∀ {r}, P r → ∀ name, name ≠ "" → P (r.requestLayout name)
  block : ∀ {r}, P r → ∀ region b, region ≠ "" → P (r.addBlock region b)
  find : ∀ {r}, P r → ∀ region, P (r.findBlock region).2

namespace Stable

variable {P : Registry → Prop} {s : State} (h : Stable P) (env : Environment)

theorem faithful : Stable Faithful where
  request h _ hn := h.requestLayout hn
  block h _ b hr := h.addBlock hr b
  find h := h.findBlock

include h

theorem uniform : (Lockstep.keeping P).Uniform env where
  host := (Lockstep.keeping_closed P).host
  allowed _ := trivial
  blocks_eq hs := congrArg (·.registry.blocks) hs.1
  pending_eq hs := congrArg (·.registry.pending) hs.1
  depth_eq hs := congrArg State.depth hs.1
  warn := (Lockstep.keeping_closed P).warn
  template := Lockstep.keeping_template env
  exported := (Lockstep.keeping_closed P).exported env fun _ _ _ _ _ => trivial
  depth := Lockstep.keeping_depth
  ended_depth := by
    rintro s _ ⟨rfl, hs⟩
    exact ⟨rfl, hs⟩
  request := by
    rintro s _ ⟨rfl, hs⟩ name hn
    exact ⟨rfl, h.request hs name hn⟩
  block := by
    rintro s _ ⟨rfl, hs⟩ region b hr
    exact ⟨rfl, h.block hs region b hr⟩
  find := by
    rintro s _ ⟨rfl, hs⟩ region
    exact ⟨rfl, h.find hs region⟩

theorem render (budget : Nat) (ns : List Node) (scope : Scope) (hs : P s.registry) :
    P (perform (env.render budget ns scope) s).2.registry :=
  ((h.uniform env).render budget ns scope).kept hs

theorem compose (take : ∀ {r}, P r → P r.takeLayout.2) (budget : Nat) (ns : List Node)
    (root : Scope) (hs : P s.registry) :
    P (perform (env.compose budget ns root) s).2.registry := by
  refine ((h.uniform env).compose ?_ budget ns root).kept hs
  rintro s _ ⟨rfl, hs⟩
  exact ⟨rfl, take hs⟩

end Stable

end Registry

def recorded : Lockstep where
  states s t := ∃ history, t = { s with registry := { s.registry with history } }

namespace Lockstep

theorem recorded_update (f : HostState → HostState)
    (extensions : OrderedMap (Option Content) → OrderedMap (Option Content)) {s t : State}
    (h : recorded.states s t) :
    recorded.states { s with host := f s.host, extensions := extensions s.extensions }
      { t with host := f t.host, extensions := extensions t.extensions } := by
  obtain ⟨history, rfl⟩ := h
  exact ⟨history, rfl⟩

theorem recorded_closed : recorded.Closed := by
  have agree : ∀ {s t}, recorded.states s t → s.host = t.host := by
    rintro s _ ⟨history, rfl⟩
    rfl
  refine ⟨⟨fun h => agree h ▸ .refl _, ?_, ?_, ?_, ?_, fun _ => trivial, fun _ _ _ _ => trivial,
    fun _ _ _ _ => ⟨id, id⟩⟩, ?_, ?_, ?_, ?_⟩
  · exact fun h label =>
      recorded_update (fun g => { g with calls := g.calls ++ [.function label] }) id h
  · exact fun h counters => recorded_update (fun g => { g with counters }) id h
  · exact fun h consumed => recorded_update (fun g => { g with consumed }) id h
  · exact fun h next => recorded_update (fun g => { g with nextStream := next }) id h
  · rintro s _ ⟨history, rfl⟩
    rfl
  · exact fun h extensions => recorded_update id (fun _ => extensions) h
  · exact fun name => agrees_update fun s t h =>
      recorded_update (fun g => { g with calls := g.calls ++ [.require name] }) id h
  · exact fun warning => agrees_update fun s t h =>
      recorded_update (fun g => { g with warnings := g.warnings ++ [warning] }) id h

theorem recorded_uniform (env : Environment) : recorded.Uniform env where
  host := recorded_closed.host
  allowed _ := trivial
  blocks_eq := by
    rintro s _ ⟨history, rfl⟩
    rfl
  pending_eq := by
    rintro s _ ⟨history, rfl⟩
    rfl
  depth_eq := by
    rintro s _ ⟨history, rfl⟩
    rfl
  warn := recorded_closed.warn
  template := by
    rintro name s _ ⟨history, rfl⟩
    rw [env.perform_template, env.perform_template]
    unfold Environment.looked Environment.resolved
    dsimp only
    cases s.templates.lookup name with
    | some nodes => exact .ok rfl ⟨history, rfl⟩
    | none =>
      cases hf : env.found name with
      | ok found => exact .ok rfl ⟨history, rfl⟩
      | error e => exact .error trivial ⟨history, rfl⟩
  exported := recorded_closed.exported env fun _ _ _ _ _ => trivial
  depth := by
    rintro s _ ⟨history, rfl⟩ d
    exact ⟨history, rfl⟩
  ended_depth := by
    rintro s _ ⟨history, rfl⟩
    exact ⟨history, rfl⟩
  request := by
    rintro s _ ⟨history, rfl⟩ name _
    exact ⟨_, rfl⟩
  block := by
    rintro s _ ⟨history, rfl⟩ region block _
    exact ⟨_, rfl⟩
  find := by
    rintro s _ ⟨history, rfl⟩ region
    exact ⟨_, rfl⟩

end Lockstep

theorem compose_history (env : Environment) (budget : Nat) (nodes : List Node) (root : Scope)
    (s : State) (history : List PageEvent) :
    (perform (env.compose budget nodes root)
      { s with registry := { s.registry with history } }).1 =
      (perform (env.compose budget nodes root) s).1 := by
  have htake : ∀ {s t}, recorded.states s t →
      recorded.states { s with registry := s.registry.takeLayout.2 }
        { t with registry := t.registry.takeLayout.2 } := by
    rintro s _ ⟨history, rfl⟩
    exact ⟨_, rfl⟩
  have ho := (Lockstep.recorded_uniform env).compose htake budget nodes root s _ ⟨history, rfl⟩
  generalize perform (env.compose budget nodes root) s = r at ho ⊢
  generalize perform (env.compose budget nodes root)
    { s with registry := { s.registry with history } } = r' at ho ⊢
  cases ho with
  | ok hx _ => exact congrArg Except.ok hx.symm
  | error _ _ => rfl
  | excused he => exact he.elim

end TagTemplate
