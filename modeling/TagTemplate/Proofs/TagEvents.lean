import TagTemplate.Proofs.History

/-!
# Tags make the history of a page

A tag for a block that has a region, for a layout that has a name, or for a region is an event of its
page, right after its attributes have been evaluated. No other tag is one, and beside its event a tag
changes the history only by what is rendered inside it. So a region shows the block that was met
first for it in the whole run, in the scope it was met in, and the layout taken next is the first one
asked for.
-/

namespace TagTemplate

open Markup (Node Tag)
open TagTemplate.Action

namespace Occurrence

def named? (o : Occurrence) (key : String) : Option String :=
  (o.options.lookup key).filter (· ≠ "")

def event? (o : Occurrence) (earlier : List PageEvent) : Option PageEvent :=
  match o.tag.extension, o.tag.name with
  | none, "block" => (o.named? "region").map fun region => .block region ⟨o.tag.children, o.scope⟩
  | none, "layout" => (o.named? "name").map .request
  | none, "region" =>
    let name := (o.options.lookup "name").getD ""
    some (.region name (firstBlock name earlier))
  | _, _ => none

def showsEvent (o : Occurrence) (env : Environment) (render : Renderer) :
    PageEvent → Action String
  | .region _ (some block) => do env.finish (← render block.nodes block.scope) o.options
  | .region _ none => do env.finish (← o.enclosed render) o.options
  | _ => return ""

theorem named?_eq_none_iff (o : Occurrence) (key : String) :
    o.named? key = none ↔ o.options.lookup key = none ∨ o.options.lookup key = some "" := by
  unfold named?
  cases o.options.lookup key with
  | none => simp
  | some text => simp

theorem named?_eq_some_iff (o : Occurrence) (key text : String) :
    o.named? key = some text ↔ o.options.lookup key = some text ∧ text ≠ "" := by
  unfold named?
  simp [Option.filter_eq_some_iff]

end Occurrence

namespace Registry

/-- What a tag does after the earlier events, whichever way nodes are rendered inside it. -/
structure Recorded (env : Environment) (earlier : List PageEvent) : Prop where
  /-- Where the attributes fail there is no event. -/
  failed : ∀ (render : Renderer) (budget : Nat) (tag : Tag) (scope : Scope) {s t : State}
    {fault : Fault}, perform (optionsOf render scope tag) s = (.error fault, t) →
    perform (env.renderTag render budget tag scope) s = (.error fault, t)
  /-- The event comes right after the attributes and before anything that it shows. -/
  noted : ∀ (render : Renderer) (budget : Nat) (o : Occurrence) {s t : State} {e : PageEvent},
    perform (optionsOf render o.scope o.tag) s = (.ok o.options, t) →
    t.registry = after earlier → o.event? earlier = some e →
    perform (env.renderTag render budget o.tag o.scope) s =
      perform (do return orDefault (← o.showsEvent env render e) o.options)
        { t with registry := after (earlier ++ [e]) }
  /-- A tag that is no event changes nothing but by what is rendered inside it. -/
  quiet : ∀ (render : Renderer) (budget : Nat) (o : Occurrence) {s t : State},
    perform (optionsOf render o.scope o.tag) s = (.ok o.options, t) → o.event? earlier = none →
    ∀ P : Registry → Prop,
      (∀ ns scope u, P u.registry → P (perform (render ns scope) u).2.registry) →
      P s.registry → P (perform (env.renderTag render budget o.tag o.scope) s).2.registry

section Tags

variable {env : Environment} {render : Renderer} {budget : Nat} {o : Occurrence} {s t : State}
  {earlier : List PageEvent}

theorem perform_renderTag_error {tag : Tag} {scope : Scope} {fault : Fault}
    (h : perform (optionsOf render scope tag) s = (.error fault, t)) :
    perform (env.renderTag render budget tag scope) s = (.error fault, t) := by
  unfold Environment.renderTag
  rw [perform_bind, h]

theorem perform_renderTag_ok (h : perform (optionsOf render o.scope o.tag) s = (.ok o.options, t)) :
    perform (env.renderTag render budget o.tag o.scope) s =
      perform (do
        return orDefault (← env.renderWith render budget o.tag o.options o.scope) o.options) t := by
  unfold Environment.renderTag
  rw [perform_bind_ok h]

theorem perform_renderRegion (h : t.registry = after earlier) {name : String}
    (hname : (o.options.lookup "name").getD "" = name) :
    perform (env.renderRegion render o) t =
      perform (o.showsEvent env render (.region name (firstBlock name earlier)))
        { t with registry := after (earlier ++ [.region name (firstBlock name earlier)]) } := by
  have hfound : perform (Environment.findBlock name) t = (.ok (firstBlock name earlier),
      { t with registry := after (earlier ++ [.region name (firstBlock name earlier)]) }) := by
    rw [after_concat, ← h, ← lookup_after, ← h]
    rfl
  unfold Environment.renderRegion
  rw [hname, perform_bind_ok hfound]
  generalize firstBlock name earlier = shown
  cases shown with
  | none => rfl
  | some block => rfl

theorem perform_renderWith_event {e : PageEvent} (h : t.registry = after earlier)
    (he : o.event? earlier = some e) :
    perform (env.renderWith render budget o.tag o.options o.scope) t =
      perform (o.showsEvent env render e) { t with registry := after (earlier ++ [e]) } := by
  unfold Occurrence.event? at he
  split at he
  · next hextension hname =>
    obtain ⟨region, hregion, rfl⟩ := Option.map_eq_some_iff.1 he
    obtain ⟨hlookup, hne⟩ := (o.named?_eq_some_iff _ _).1 hregion
    rw [env.renderWith_structural render budget .block hextension hname]
    unfold Environment.renderStructural Environment.renderBlock
    dsimp only
    rw [after_concat, ← h, hlookup]
    split
    · next heq => cases heq
    · next heq => exact absurd (Option.some.inj heq) hne
    · next heq =>
      cases heq
      rfl
  · next hextension hname =>
    obtain ⟨name, hname', rfl⟩ := Option.map_eq_some_iff.1 he
    obtain ⟨hlookup, hne⟩ := (o.named?_eq_some_iff _ _).1 hname'
    rw [env.renderWith_structural render budget .layout hextension hname]
    unfold Environment.renderStructural Environment.renderLayout
    dsimp only
    rw [after_concat, ← h, hlookup]
    split
    · next heq => cases heq
    · next heq => exact absurd (Option.some.inj heq) hne
    · next heq =>
      cases heq
      rfl
  · next hextension hname =>
    cases he
    rw [env.renderWith_structural render budget .region hextension hname]
    exact perform_renderRegion (o := ⟨o.tag, o.options, o.scope, o.scope⟩) h rfl
  · cases he

theorem renderWith_of_no_event (hextension : o.tag.extension = none)
    (hname : o.tag.name = "block" ∨ o.tag.name = "layout" ∨ o.tag.name = "region")
    (he : o.event? earlier = none) :
    env.renderWith render budget o.tag o.options o.scope = pure "" := by
  unfold Occurrence.event? at he
  rw [hextension] at he
  rcases hname with hname | hname | hname
  · rw [hname] at he
    have hregion := (o.named?_eq_none_iff "region").1 (Option.map_eq_none_iff.1 he)
    rw [env.renderWith_structural render budget .block hextension hname]
    unfold Environment.renderStructural Environment.renderBlock
    rcases hregion with h | h
    · simp [h]
    · simp [h]
  · rw [hname] at he
    have hlayout := (o.named?_eq_none_iff "name").1 (Option.map_eq_none_iff.1 he)
    rw [env.renderWith_structural render budget .layout hextension hname]
    unfold Environment.renderStructural Environment.renderLayout
    rcases hlayout with h | h
    · simp [h]
    · simp [h]
  · rw [hname] at he
    cases he

theorem keeps_of_no_event {P : Registry → Prop}
    (hrender : ∀ ns scope u, P u.registry → P (perform (render ns scope) u).2.registry)
    (hoptions : perform (optionsOf render o.scope o.tag) s = (.ok o.options, t))
    (he : o.event? earlier = none) (hs : P s.registry) :
    P (perform (env.renderTag render budget o.tag o.scope) s).2.registry := by
  have hagrees : ∀ ns scope, (Lockstep.keeping P).Agrees (render ns scope) (render ns scope) :=
    fun ns scope => Lockstep.agrees_keeping (hrender ns scope)
  have hclosed := Lockstep.keeping_closed P
  have hpairing := Lockstep.pairing_sameTree (P := fun _ => True) hclosed.host rfl
    (hclosed.exported env fun _ _ _ _ _ => trivial) trivial (fun ns scope _ => hagrees ns scope)
    budget
  have htag : TagAgrees (SameTree fun _ => True) o.tag o.tag := sameTree_tag fun _ _ => trivial
  by_cases hname : o.tag.extension = none ∧
      (o.tag.name = "block" ∨ o.tag.name = "layout" ∨ o.tag.name = "region")
  · have hkept := ((hpairing.optionsOf htag rfl : (Lockstep.keeping P).Relates _
      (optionsOf render o.scope o.tag) (optionsOf render o.scope o.tag))).kept hs
    rw [hoptions] at hkept
    rw [perform_renderTag_ok hoptions, renderWith_of_no_event hname.1 hname.2 he]
    exact hkept
  · refine Lockstep.Relates.kept (hpairing.renderTag_same htag ?_ o.scope) hs
    refine ⟨fun _ _ options scope _ => ?_, fun hext hn => ?_, fun hext hn => ?_,
      fun hext hn => ?_⟩
    · refine Lockstep.agrees_renderInclude (hclosed.warn _)
        (fun name _ => (Lockstep.keeping_template env name).found) ?_
      rintro name ns _ rfl
      refine Lockstep.relates_oneDeeper (L := .keeping P) (fun _ => trivial)
        (fun hs => congrArg State.depth hs.1) Lockstep.keeping_depth ?_ name ?_
      · rintro u _ ⟨rfl, hu⟩
        exact ⟨rfl, hu⟩
      · exact Lockstep.Agrees.bind (hagrees ns scope) fun text =>
          hclosed.host.finish rfl text options
    · exact absurd ⟨hext, Or.inr (Or.inl hn)⟩ hname
    · exact absurd ⟨hext, Or.inl hn⟩ hname
    · exact absurd ⟨hext, Or.inr (Or.inr hn)⟩ hname

end Tags

theorem recorded (env : Environment) (earlier : List PageEvent) : Recorded env earlier where
  failed _ _ _ _ _ _ _ h := perform_renderTag_error h
  noted render budget o s t e hoptions hregistry he := by
    rw [perform_renderTag_ok hoptions, perform_bind, perform_bind,
      perform_renderWith_event hregistry he]
  quiet _ _ _ _ _ hoptions he _ hrender hs := keeps_of_no_event hrender hoptions he hs

/-- A moment of a page, between the events so far and those to come. -/
structure Moment (env : Environment) (earlier later : List PageEvent) : Prop where
  /-- Until any later moment, blocks are only added after those there are. -/
  kept : ∀ more rest, later = more ++ rest →
    (after earlier).blocks <+: (after (earlier ++ more)).blocks
  /-- No region has two blocks. -/
  distinct : ((after earlier).blocks.map Prod.fst).Nodup
  /-- The block of a region is the one that was met first for it. -/
  first : ∀ region, (after earlier).blocks.lookup region = firstBlock region earlier
  /-- The layout to take next is the one that was asked for first since one was last taken. -/
  pending : (after earlier).pending = firstRequest (sinceTake earlier)
  /-- A layout that is taken now is that one. -/
  taken : ∀ name rest, later = .take name :: rest → name = firstRequest (sinceTake earlier)
  /-- A layout that is asked for now has a name. -/
  named : ∀ name rest, later = .request name :: rest → name ≠ ""
  /-- A region that is shown now is shown with the block that was met first for it. -/
  shown : ∀ region block rest, later = .region region block :: rest →
    block = firstBlock region earlier
  /-- A tag that is rendered now is its event, and a region shows that block. -/
  tags : Recorded env earlier

theorem Faithful.moment (env : Environment) {r : Registry} (h : r.Faithful)
    {earlier later : List PageEvent} (he : r.events = earlier ++ later) :
    Moment env earlier later := by
  refine ⟨?_, nodup_after earlier, lookup_after earlier, pending_after earlier, ?_, ?_, ?_,
    recorded env earlier⟩
  · intro more rest _
    exact blocks_after_append earlier more
  · rintro name rest rfl
    exact (h.enabled earlier _ rest he).trans (pending_after earlier)
  · rintro name rest rfl
    exact h.enabled earlier _ rest he
  · rintro region block rest rfl
    exact (h.enabled earlier _ rest he).trans (lookup_after earlier region)

end Registry

/-- In every run of a page, at every moment, the registry is what the events so far make of it, and
each tag for a block, a layout or a region is an event: the first block of a region stays, the first
layout asked for is taken next, and a region shows the block that was met first for it in the whole
run, in the scope it was met in, or what it encloses if there was none yet. What is said to have
happened before the run decides nothing. -/
theorem compose_first_block_wins (env : Environment) (budget : Nat) (nodes : List Node)
    (root : Scope) (s : State) :
    let run (registry : Registry) := perform (env.compose budget nodes root) { s with registry }
    let registry := (run {}).2.registry
    registry = .after registry.events ∧
      (∀ earlier later, registry.events = earlier ++ later →
        Registry.Moment env earlier later) ∧
      ∀ history, (run { history }).1 = (run {}).1 := by
  intro run registry
  have hfaithful : registry.Faithful :=
    Registry.Stable.faithful.compose env (fun h => h.takeLayout) budget nodes root .empty
  refine ⟨hfaithful.replay, fun earlier later he => hfaithful.moment env he, fun history => ?_⟩
  exact compose_history env budget nodes root { s with registry := {} } history

/-- An included template keeps a block for a region that is shown before and after that. A block
that is met later comes too late. -/
theorem compose_first_block_wins_included :
    let texts := [("a", "<pop:block region=\"r\">A</pop:block>")]
    let env : Environment := { read := some fun name => .ok (texts.lookup name) }
    let region : Node := .tag ⟨"region", none, [("name", .literal "r")], [.text "-"], false⟩
    let included : Node := .tag ⟨"include", none, [("template", .literal "a")], [], true⟩
    let late : Node := .tag ⟨"block", none, [("region", .literal "r")], [.text "B"], false⟩
    let root : Scope := { frame := { value := .null } }
    let run := perform (env.compose 3 [region, included, late, region] root) {}
    let events := run.2.registry.events
    let text : Node → String
      | .text text => text
      | .tag tag => tag.name
    run.1 = .ok "-A" ∧ events.length = 5 ∧
      (firstBlock "r" (events.take 3)).map (·.nodes.map text) = some ["A"] ∧
      Registry.Moment env (events.take 3) (events.drop 3) := by
  intro texts env region included late root run events text
  have hwins := compose_first_block_wins env 3 [region, included, late, region] root {}
  have hmoment := hwins.2.1 _ _ (List.take_append_drop 3 events).symm
  exact ⟨by decide +kernel, by decide +kernel, by decide +kernel, hmoment⟩

end TagTemplate
