import TagTemplate.Proofs.Meaning
import TagTemplate.Proofs.Negation

/-!
# Functions are transparent

A name may mean a function that returns a function, and so on. What the tag shows then is what the
last one returns, in the state that is left when each of them has been called once. There are two
exceptions. A returned text is markup around what a tag encloses. And of a returned array all items
are shown, also by a tag that says how many of them to leave out.
-/

namespace TagTemplate

open Markup (Node Tag)
open TagTemplate.Action

/-- The functions are called one after the other. Each one returns the next one, and the last one
returns content that is no function. -/
structure HostFunction.Chain (arguments : List Argument) (fs : List HostFunction) (s : State)
    (c : Content) (t : State) : Prop where
  calls : perform (fs.mapM fun f => f.outcome arguments) s =
    (.ok (fs.tail.map Content.callable ++ [c]), t)
  ends : ∀ f, c ≠ .callable f

/-- The text of content that has one of its own and is no truth value. It cannot be written if it
is that of a number with too many digits. -/
def Content.ownText? : Content → Option (Action String)
  | .string text => some (pure text)
  | .number n => some n.written
  | _ => none

theorem HostFunction.Chain.settles {arguments : List Argument} {f : HostFunction}
    {fs : List HostFunction} {s t : State} {c : Content}
    (h : Chain arguments (f :: fs) s c t) :
    (Content.callable f).Settles arguments (fs.length + 1) s c t := by
  obtain ⟨hcalls, hends⟩ := h
  induction fs generalizing f s with
  | nil =>
    obtain ⟨d, s₁, ds, hd, hcall, hrest⟩ := exists_of_perform_mapM_cons hcalls
    cases hrest
    cases hd
    exact .call hcall (.done hends)
  | cons g fs ih =>
    obtain ⟨d, s₁, ds, hd, hcall, hrest⟩ := exists_of_perform_mapM_cons hcalls
    cases hd
    exact .call hcall (ih hrest)

theorem Action.perform_bind_of_eq {α β : Type} {a b : Action α} {g : α → Action β} {s t : State}
    (h : perform a s = perform b t) : perform (a >>= g) s = perform (b >>= g) t := by
  rw [perform_bind, perform_bind, h]

namespace Environment

variable {env : Environment} {render : Renderer} {budget : Nat} {o : Occurrence} {c : Content}

theorem showReturned_eq (h : c.ownText? = none ∨ o.tag.children = []) :
    env.showReturned render o c = env.showContent render o c := by
  unfold showReturned
  rcases h with h | h
  · cases c with
    | string text => cases h
    | number n => cases h
    | _ => simp
  · simp [h]

theorem showReturned_text (hchildren : o.tag.children ≠ []) {text : Action String}
    (h : c.ownText? = some text) :
    env.showReturned render o c = (do env.finish (← text) o.options) := by
  unfold showReturned
  cases c with
  | string text => cases h; simp [hchildren]
  | number n => cases h; simp [hchildren]
  | _ => cases h

section Chain

variable {f : HostFunction} {fs : List HostFunction} {s t : State}
  (hchain : HostFunction.Chain (o.arguments render) (f :: fs) s c t) (hbudget : fs.length < budget)

include hchain hbudget

theorem perform_settle_chain : perform (o.settle render budget f) s = (.ok c, t) :=
  hchain.settles.settle hbudget

theorem perform_showSubject_chain :
    perform (env.showSubject render budget o (.callable f)) s =
      perform (env.showReturned render o c) t :=
  perform_bind_ok (perform_settle_chain hchain hbudget)

theorem perform_isPresent_chain :
    perform (isPresent render budget o (.callable f)) s = (.ok c.present, t) :=
  perform_isPresent hchain.settles hbudget

end Chain

section Tags

variable {tag : Tag} {options : Options} {scope parent : Scope} {meaning : Action (Content × Scope)}
  {f : HostFunction} {fs : List HostFunction} {s s₁ s₂ t : State}
  (hmeaning : env.meaning? tag scope = some meaning)
  (hoptions : perform (optionsOf render scope tag) s = (.ok options, s₁))
  (hsubject : perform meaning s₁ = (.ok (.callable f, parent), s₂))

include hmeaning hoptions hsubject

theorem perform_renderTag_callable {shown : Action String}
    (h : perform (env.renderSubject render budget ⟨tag, options, scope, parent⟩
      (negated? tag.name).isSome (.callable f)) s₂ = perform shown t) :
    perform (env.renderTag render budget tag scope) s =
      perform (do return orDefault (← shown) options) t := by
  rw [env.perform_renderTag_of_meaning render budget hmeaning hoptions hsubject]
  exact perform_bind_of_eq h

/-- A tag whose name means a function calls each function of the chain once. Then, in the state that
the calls leave, it shows what they came to as if its name meant that. But around nodes a text that
they came to is shown as it is, and a tag that shows items shows all items of an array that they
came to. The negation of a name shows what it encloses if and only if they came to nothing. -/
theorem renderTag_called
    (hchain : HostFunction.Chain
      (Occurrence.arguments ⟨tag, options, scope, parent⟩ render) (f :: fs) s₂ c t)
    (hbudget : fs.length < budget) :
    let o : Occurrence := ⟨tag, options, scope, parent⟩
    let shows (shown : Action String) : Prop :=
      perform (env.renderTag render budget tag scope) s =
        perform (do return orDefault (← shown) options) t
    (negated? tag.name = none →
      (∀ text, tag.children ≠ [] → c.ownText? = some text →
        shows (do env.finish (← text) options)) ∧
      ((tag.children = [] ∨ c.ownText? = none) → (tag.ShowsItems → ∀ items, c ≠ .array items) →
        perform (env.renderTag render budget tag scope) s =
          perform (env.renderAs render budget o c) t) ∧
      (∀ items, tag.ShowsItems → c = .array items → shows (env.showContent render o c))) ∧
    ((negated? tag.name).isSome →
      shows (if c.present then pure "" else render tag.children scope)) := by
  intro o shows
  have hshown : negated? tag.name = none → shows (env.showReturned render o c) := by
    intro hpositive
    apply perform_renderTag_callable hmeaning hoptions hsubject
    rw [hpositive]
    exact perform_showSubject_chain hchain hbudget
  refine ⟨fun hpositive => ⟨?_, ?_, ?_⟩, fun hnegated => ?_⟩
  · intro text hchildren htext
    have hreturned : env.showReturned render o c = (do env.finish (← text) options) :=
      showReturned_text hchildren htext
    rw [← hreturned]
    exact hshown hpositive
  · intro hplain hitems
    have hreturned : env.showReturned render o c = env.showContent render o c :=
      showReturned_eq hplain.symm
    have htaken : o.taken c = c := by
      by_cases h : tag.ShowsItems
      · exact Occurrence.taken_of_not_array (hitems h)
      · exact Occurrence.taken_of_not_showsItems h
    rw [renderAs_of_ends (o := o) hpositive hchain.ends htaken, ← hreturned]
    exact hshown hpositive
  · rintro items - rfl
    have hreturned : env.showReturned render o (.array items) =
        env.showContent render o (.array items) := showReturned_eq (Or.inl rfl)
    rw [← hreturned]
    exact hshown hpositive
  · apply perform_renderTag_callable hmeaning hoptions hsubject
    rw [hnegated]
    have hpresent := perform_isPresent_chain (o := o) hchain hbudget
    unfold renderSubject
    rw [if_pos rfl, perform_bind_ok hpresent]
    rfl

end Tags

/-- A function returns a function that gives back what the tag encloses, which is not escaped. -/
theorem renderTag_called_markup :
    let give : HostFunction := ⟨⟨2, none, false⟩, some "give", .enclosing⟩
    let outer : HostFunction := ⟨⟨0, none, false⟩, some "outer", .value (.function give)⟩
    let tag : Tag := ⟨"x", none, [("wrap", .literal "b")], [.text "a&b"], false⟩
    let scope : Scope := ⟨{ value := .null, bindings := [("x", .callable outer)] }, []⟩
    let o : Occurrence := ⟨tag, [("wrap", "b")], scope, scope⟩
    let meaning : Action (Content × Scope) := do return (← scope.lookup "x", scope)
    let render := Environment.render {} 1
    let called : State := { host.calls := [.function "outer", .function "give"] }
    meaning? {} tag scope = some meaning ∧
      perform (optionsOf render scope tag) {} = (.ok o.options, {}) ∧
      perform meaning {} = (.ok (.callable outer, scope), {}) ∧
      HostFunction.Chain (o.arguments render) [outer, give] {} (.string "a&b") called ∧
      (perform (renderTag {} render 2 tag scope) {}).1 = .ok "<b>a&b</b>" ∧
      perform (renderTag {} render 2 tag scope) {} =
        perform (do return orDefault (← finish {} "a&b" o.options) o.options) called := by
  intro give outer tag scope o meaning render called
  have hchain : HostFunction.Chain (o.arguments render) [outer, give] {} (.string "a&b") called :=
    ⟨rfl, nofun⟩
  have hmeaning : meaning? {} tag scope = some meaning :=
    meaning?_of_ordinary {} rfl (by decide) (by decide)
  have hoptions : perform (optionsOf render scope tag) {} = (.ok o.options, {}) := rfl
  refine ⟨hmeaning, hoptions, rfl, hchain, by decide +kernel, ?_⟩
  have hcalled := renderTag_called hmeaning hoptions rfl hchain (by decide : 1 < 2)
  exact (hcalled.1 (by decide)).1 (pure "a&b") (by decide) rfl

/-- A tag that shows one item shows three of them if a function returned them. -/
theorem renderTag_called_whole :
    let items := Content.array [.string "a", .string "b", .string "c"]
    let give : HostFunction := ⟨⟨0, none, false⟩, none, .value items.raw⟩
    let tag : Tag := ⟨"values", none, [("limit", .literal "1")], [], true⟩
    let scope : Scope := ⟨{ value := .null, bindings := [("values", .callable give)] }, []⟩
    let o : Occurrence := ⟨tag, [("limit", "1")], scope, scope⟩
    let meaning : Action (Content × Scope) := do return (← scope.lookup "values", scope)
    let render := Environment.render {} 1
    meaning? {} tag scope = some meaning ∧
      perform (optionsOf render scope tag) {} = (.ok o.options, {}) ∧
      perform meaning {} = (.ok (.callable give, scope), {}) ∧
      HostFunction.Chain (o.arguments render) [give] {} items {} ∧
      (perform (renderTag {} render 1 tag scope) {}).1 = .ok "abc" ∧
      (perform (renderAs {} render 1 o items) {}).1 = .ok "a" := by
  intro items give tag scope o meaning render
  have hmeaning : meaning? {} tag scope = some meaning :=
    meaning?_of_showsItems {} ⟨rfl, rfl⟩
  refine ⟨hmeaning, rfl, rfl, ⟨rfl, nofun⟩, ?_, ?_⟩
  · decide +kernel
  · decide +kernel

end Environment

end TagTemplate
