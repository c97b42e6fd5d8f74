import TagTemplate.Proofs.Calling

/-!
# Tags without a subject

A tag may find nothing to show: its name means nothing, or null, an empty text or an empty array, or
functions that come to one of these. Then it shows its default. Apart from its attributes, only the
search for the subject and the calls of the functions have left a trace: no filter has been applied,
and what the tag encloses has not been rendered, unless by one of the functions.
-/

namespace TagTemplate

open Markup (Node Tag)
open TagTemplate.Action

inductive Content.IsAbsent : Content → Prop where
  | missing : IsAbsent .missing
  | null : IsAbsent .null
  | empty_string : IsAbsent (.string "")
  | empty_array : IsAbsent (.array [])

theorem Content.IsAbsent.not_callable {c : Content} (h : c.IsAbsent) : ∀ f, c ≠ .callable f := by
  intro f
  cases h <;> nofun

namespace Content

theorem window_skip_all {items : List HostValue} {skip : Int} (h : (items.length : Int) ≤ skip)
    (limit : Option Int) : window items skip limit = [] := by
  have hdrop : items.drop skip.toNat = [] := List.drop_eq_nil_of_le (by omega)
  unfold window
  cases limit <;> simp [hdrop]

theorem window_limit_none (items : List HostValue) (skip : Int) {limit : Int} (h : limit ≤ 0) :
    window items skip (some limit) = [] := by
  have htake : limit.toNat = 0 := Int.toNat_of_nonpos h
  simp [window, htake]

end Content

namespace Environment

variable {env : Environment} {render : Renderer} {budget : Nat}

theorem showContent_absent {o : Occurrence} {c : Content} (h : c.IsAbsent) :
    env.showContent render o c = pure "" := by
  cases h <;> rfl

theorem showSubject_absent {o : Occurrence} {c : Content} (h : c.IsAbsent) :
    env.showSubject render budget o c = pure "" := by
  rw [showSubject_of_ends h.not_callable, showContent_absent h]

theorem showReturned_absent {o : Occurrence} {c : Content} (h : c.IsAbsent) (s : State) :
    perform (env.showReturned render o c) s = (.ok "", s) := by
  unfold showReturned
  rw [showContent_absent h]
  split
  · rfl
  · cases h <;> rfl

/-- A tag with the given attribute values looks for something to show, in the first state, and has
found nothing in the second one. -/
inductive FindsNothing (env : Environment) (render : Renderer) (budget : Nat) (tag : Tag)
    (options : Options) (scope : Scope) (s : State) : State → Prop where
  /-- An array that is shown as a whole is no item. -/
  | whole (hextension : tag.extension = none) (hname : tag.name = "value")
      (hframe : scope.frame.collection = true) :
      FindsNothing env render budget tag options scope s s
  /-- The name means something absent, or an array of which no items are taken. -/
  | found {meaning : Action (Content × Scope)} {c : Content} {parent : Scope} {t : State}
      (hmeaning : env.meaning? tag scope = some meaning)
      (hsubject : perform meaning s = (.ok (c, parent), t))
      (habsent : (Occurrence.taken ⟨tag, options, scope, parent⟩ c).IsAbsent) :
      FindsNothing env render budget tag options scope s t
  /-- The name means a function, and the functions come to something absent. -/
  | called {meaning : Action (Content × Scope)} {f : HostFunction} {fs : List HostFunction}
      {parent : Scope} {s₁ : State} {c : Content} {t : State}
      (hmeaning : env.meaning? tag scope = some meaning)
      (hsubject : perform meaning s = (.ok (.callable f, parent), s₁))
      (hchain : HostFunction.Chain
        (Occurrence.arguments ⟨tag, options, scope, parent⟩ render) (f :: fs) s₁ c t)
      (hbudget : fs.length < budget) (habsent : c.IsAbsent) :
      FindsNothing env render budget tag options scope s t

theorem FindsNothing.of_no_extension {tag : Tag} {extension : String}
    (hextension : tag.extension = some extension) {options : Options} {scope : Scope} {s t : State}
    (h : perform (env.extension extension scope) s = (.ok none, t)) :
    FindsNothing env render budget tag options scope s t := by
  obtain ⟨name, _, attributes, children, closing⟩ := tag
  cases hextension
  exact .found rfl (perform_bind_ok h) .missing

theorem FindsNothing.of_window {tag : Tag} (hitems : tag.ShowsItems) {options : Options}
    {scope : Scope} {items : List HostValue} {s t : State}
    (h : perform (scope.lookup "values") s = (.ok (.array items), t))
    (hwindow : (items.length : Int) ≤ (numberOption options "skip").getD 0 ∨
      ∃ limit ≤ 0, numberOption options "limit" = some limit) :
    FindsNothing env render budget tag options scope s t := by
  refine .found (env.meaning?_of_showsItems hitems) (perform_bind_ok h) ?_
  have hnone : Content.window items ((numberOption options "skip").getD 0)
      (numberOption options "limit") = [] := by
    rcases hwindow with hskip | ⟨limit, hlimit, hoption⟩
    · exact Content.window_skip_all hskip _
    · rw [hoption]
      exact Content.window_limit_none items _ hlimit
  simp only [Occurrence.taken, if_pos hitems, hnone]
  exact .empty_array

theorem orDefault_empty (options : Options) :
    orDefault "" options = (options.lookup "default").getD "" := if_pos rfl

theorem perform_renderWith_of_findsNothing {tag : Tag} {options : Options} {scope : Scope}
    {s t : State} (hpositive : negated? tag.name = none)
    (h : FindsNothing env render budget tag options scope s t) :
    perform (env.renderWith render budget tag options scope) s = (.ok "", t) := by
  cases h with
  | whole hextension hname hframe =>
    rw [env.renderWith_structural render budget .value hextension hname]
    simp [renderStructural, renderItemValue, hframe]
  | found hmeaning hsubject habsent =>
    rw [env.renderWith_of_meaning render budget hmeaning options, perform_bind_ok hsubject]
    simp [renderSubject, hpositive, showSubject_absent habsent]
  | @called meaning f fs parent s₁ c t hmeaning hsubject hchain hbudget habsent =>
    have htaken : Occurrence.taken ⟨tag, options, scope, parent⟩ (.callable f) = .callable f := rfl
    rw [env.renderWith_of_meaning render budget hmeaning options, perform_bind_ok hsubject]
    simp only [renderSubject, hpositive, htaken]
    rw [Option.isSome_none, if_neg Bool.false_ne_true, perform_showSubject_chain hchain hbudget]
    exact showReturned_absent habsent t

/-- A tag that finds nothing to show, and is no negation, shows its default, in the state that the
search has left. -/
theorem renderTag_absent {tag : Tag} {options : Options} {scope : Scope} {s s₁ t : State}
    (hpositive : negated? tag.name = none)
    (hoptions : perform (optionsOf render scope tag) s = (.ok options, s₁))
    (h : FindsNothing env render budget tag options scope s₁ t) :
    perform (env.renderTag render budget tag scope) s =
      (.ok ((options.lookup "default").getD ""), t) := by
  have hnothing := perform_renderWith_of_findsNothing hpositive h
  unfold renderTag
  rw [perform_bind_ok hoptions, perform_bind_ok hnothing, orDefault_empty]
  rfl

/-- A function comes to an empty text. Neither the filter, which would fail, nor the function that
the tag encloses is called. -/
theorem renderTag_absent_called :
    let empty : HostFunction := ⟨⟨0, none, false⟩, some "empty", .value (.string "")⟩
    let outer : HostFunction := ⟨⟨0, none, false⟩, some "outer", .value (.function empty)⟩
    let env : Environment :=
      { filters := [("wrap", ⟨⟨0, none, false⟩, some "filter", .raise .general "boom"⟩)] }
    let enclosed : Tag := ⟨"outer", none, [], [], true⟩
    let tag : Tag := ⟨"x", none, [("wrap", .literal "b"), ("default", .literal "-")],
      [.tag enclosed], false⟩
    let scope : Scope := ⟨{ value := .null, bindings := [("x", .callable outer)] }, []⟩
    let options : Options := [("wrap", "b"), ("default", "-")]
    let render := env.render 1
    let called : State := { host.calls := [.function "outer", .function "empty"] }
    negated? tag.name = none ∧
      perform (optionsOf render scope tag) {} = (.ok options, {}) ∧
      FindsNothing env render 2 tag options scope {} called ∧
      perform (env.renderTag render 2 tag scope) {} = (.ok "-", called) := by
  intro empty outer env enclosed tag scope options render called
  have hpositive : negated? tag.name = none := by decide
  have hoptions : perform (optionsOf render scope tag) {} = (.ok options, {}) := rfl
  have hmeaning : env.meaning? tag scope = some (do return (← scope.lookup "x", scope)) :=
    meaning?_of_ordinary env rfl hpositive (by decide)
  have hchain : HostFunction.Chain (Occurrence.arguments ⟨tag, options, scope, scope⟩ render)
      [outer, empty] {} (.string "") called := ⟨rfl, nofun⟩
  have hnothing : FindsNothing env render 2 tag options scope {} called :=
    .called hmeaning rfl hchain (by decide) .empty_string
  exact ⟨hpositive, hoptions, hnothing, renderTag_absent hpositive hoptions hnothing⟩

/-- A tag that shows none of three items shows all of them if a function returned them. -/
theorem renderTag_absent_returned :
    let items := Content.array [.string "a", .string "b", .string "c"]
    let give : HostFunction := ⟨⟨0, none, false⟩, none, .value items.raw⟩
    let tag : Tag := ⟨"values", none, [("limit", .literal "0")], [], true⟩
    let scope : Scope := ⟨{ value := .null, bindings := [("values", .callable give)] }, []⟩
    let options : Options := [("limit", "0")]
    let o : Occurrence := ⟨tag, options, scope, scope⟩
    let render := Environment.render {} 1
    perform (optionsOf render scope tag) {} = (.ok options, {}) ∧
      perform (scope.lookup "values") {} = (.ok (.callable give), {}) ∧
      HostFunction.Chain (o.arguments render) [give] {} items {} ∧
      (o.taken items).IsAbsent ∧ options.lookup "default" = none ∧
      (perform (renderTag {} render 1 tag scope) {}).1 = .ok "abc" := by
  intro items give tag scope options o render
  refine ⟨rfl, rfl, ⟨rfl, nofun⟩, .empty_array, rfl, ?_⟩
  decide +kernel

end Environment

end TagTemplate
