import TagTemplate.Proofs.Calling
import TagTemplate.Proofs.CleanOutput

/-!
# Names that the content computes

The attribute that names a template, a layout or a region may be markup instead of literal text. A
tag in it that means a string gives this string as a page would show it, which is escaped. So the
name is the string itself where no character of it has a meaning in markup, and with
`escape="false"` it always is.
-/

namespace TagTemplate

open Markup (Node Tag AttributeValue)
open TagTemplate.Action

def Occurrence.rewrite (o : Occurrence) (attributes : List (String × AttributeValue)) :
    Occurrence :=
  { o with tag := { o.tag with attributes } }

namespace Environment

section Rewritten

variable (env : Environment) (render : Renderer) (budget : Nat) (o : Occurrence)
  (attributes : List (String × AttributeValue))

theorem settle_rewrite (f : HostFunction) :
    (o.rewrite attributes).settle render budget f = o.settle render budget f := by
  induction budget generalizing f with
  | zero => rfl
  | succ budget ih =>
    have hcall : (o.rewrite attributes).call render f = o.call render f := rfl
    unfold Occurrence.settle
    rw [hcall]
    simp only [ih]

theorem showSubject_rewrite (c : Content) :
    env.showSubject render budget (o.rewrite attributes) c = env.showSubject render budget o c := by
  have hcontent : ∀ c, env.showContent render (o.rewrite attributes) c =
      env.showContent render o c := by
    intro c
    cases c <;> rfl
  have hreturned : ∀ c, env.showReturned render (o.rewrite attributes) c =
      env.showReturned render o c := by
    intro c
    cases c <;> rfl
  unfold showSubject
  simp only [settle_rewrite, hcontent, hreturned]

theorem renderSubject_rewrite (isNegated : Bool) (c : Content) :
    env.renderSubject render budget (o.rewrite attributes) isNegated c =
      env.renderSubject render budget o isNegated c := by
  unfold renderSubject isPresent
  simp only [settle_rewrite, showSubject_rewrite]
  rfl

theorem renderStructural_rewrite (structural : Structural) :
    env.renderStructural render budget (o.rewrite attributes) structural =
      env.renderStructural render budget o structural := by
  cases structural with
  | value =>
    unfold renderStructural renderItemValue
    simp only [showSubject_rewrite]
    rfl
  | values =>
    unfold renderStructural renderItemValues
    simp only [showSubject_rewrite]
    rfl
  | _ => rfl

theorem renderWith_rewrite (tag : Tag) (options : Options) (scope : Scope) :
    env.renderWith render budget { tag with attributes } options scope =
      env.renderWith render budget tag options scope := by
  have hsubject : ∀ parent b c,
      env.renderSubject render budget ⟨{ tag with attributes }, options, scope, parent⟩ b c =
        env.renderSubject render budget ⟨tag, options, scope, parent⟩ b c :=
    fun parent => env.renderSubject_rewrite render budget ⟨tag, options, scope, parent⟩ attributes
  have hstructural := env.renderStructural_rewrite render budget ⟨tag, options, scope, scope⟩
    attributes
  obtain ⟨name, extension, written, children, closing⟩ := tag
  unfold renderWith renderExtensionTag
  simp only [hsubject]
  cases extension with
  | some extension => rfl
  | none =>
    cases hnegated : negated? name with
    | some negated => rfl
    | none =>
      cases Structural.ofName? name with
      | some structural => exact hstructural structural
      | none => rfl

end Rewritten

end Environment

def Markup.Tag.assign (tag : Tag) (earlier : List (String × String)) (key : String)
    (value : AttributeValue) : Tag :=
  { tag with
    attributes := earlier.map (fun p => (p.1, .literal p.2)) ++ (key, value) :: tag.attributes }

namespace Environment

section Assigned

variable {env : Environment} {render : Renderer} {budget : Nat} {tag : Tag} {scope : Scope}
  {earlier : List (String × String)} {key text : String} {value : AttributeValue} {s s₁ : State}

theorem optionsOf_assign (render : Renderer) (tag : Tag) (scope : Scope)
    (earlier : List (String × String)) (key : String) (value : AttributeValue) :
    optionsOf render scope (tag.assign earlier key value) = (do
      let text ← attributeText render scope value
      return earlier ++ (key, text) :: (← optionsOf render scope tag)) := by
  have hearlier := optionsOf_literal scope render earlier "" none [] false
  unfold optionsOf at hearlier
  unfold optionsOf Markup.Tag.assign
  dsimp only at hearlier ⊢
  rw [List.mapM_append, hearlier, pure_bind, List.mapM_cons]
  simp

theorem perform_renderTag_assign
    (hvalue : perform (attributeText render scope value) s = (.ok text, s₁)) :
    perform (env.renderTag render budget (tag.assign earlier key value) scope) s =
      perform (env.renderTag render budget (tag.assign earlier key (.literal text)) scope) s₁ := by
  have hliteral : attributeText render scope (.literal text) = pure text := rfl
  unfold renderTag
  rw [optionsOf_assign, optionsOf_assign, hliteral, pure_bind, bind_assoc, perform_bind_ok hvalue]
  unfold Markup.Tag.assign
  simp only [renderWith_rewrite]

end Assigned

section Named

variable {env : Environment} (budget : Nat) {scope parent : Scope} {name n : String}
  {extension : Option String} {closing : Bool} {meaning : Action (Content × Scope)} {s s₁ : State}
  (hpositive : negated? name = none)
  (hmeaning : env.meaning? ⟨name, extension, [], [], closing⟩ scope = some meaning)
  (hsubject : perform meaning s = (.ok (.string n, parent), s₁))

include hpositive hmeaning hsubject

theorem perform_render_name (attributes : List (String × String))
    (hwrap : attributes.lookup "wrap" = none) (hdefault : attributes.lookup "default" = none)
    (hfilters : ∀ filter ∈ env.filters, OrderedMap.has attributes filter.1 = false) :
    perform (env.render (budget + 1) [.tag ⟨name, extension,
      attributes.map fun p => (p.1, .literal p.2), [], closing⟩] scope) s =
        (.ok (showText n attributes), s₁) := by
  let tag : Tag := ⟨name, extension, attributes.map fun p => (p.1, .literal p.2), [], closing⟩
  let o : Occurrence := ⟨tag, attributes, scope, parent⟩
  have htag : env.meaning? tag scope = some meaning := hmeaning
  have hoptions : perform (optionsOf (env.render budget) scope tag) s = (.ok attributes, s) := by
    rw [optionsOf_of_literal scope _ rfl, perform_pure]
  have hends : ∀ f, Content.string n ≠ .callable f := by rintro f ⟨⟩
  have hitems : ∀ items, Content.string n ≠ .array items := by rintro items ⟨⟩
  have hshown : env.showContent (env.render budget) o (.string n) =
      pure (showText n attributes) := by
    have hfinish := env.finish_of_no_attribute (showText n attributes) hfilters hwrap
    by_cases hn : n = ""
    · subst hn
      rw [showText_empty]
      rfl
    · simp [showContent, o, tag, Content.inline, hfinish, hn]
  rw [env.render_tag, env.perform_renderTag_of_single _ _ hpositive hends hitems htag hoptions
    hsubject, hshown]
  simp [orDefault_of_no_default _ hdefault]

/-- A name that a tag computes is what the tag shows of its string. So it is the string with its
special characters escaped, the string itself if it has none, and with `escape="false"` it is the
string itself in any case, unless there is a filter of that name. -/
theorem renderTag_computed (tag : Tag) (earlier : List (String × String)) (key : String) :
    let computed (attributes : List (String × AttributeValue)) : AttributeValue :=
      .markup [.tag ⟨name, extension, attributes, [], closing⟩]
    let rendered (value : AttributeValue) : Action String :=
      env.renderTag (env.render (budget + 1)) (budget + 1) (tag.assign earlier key value) scope
    perform (rendered (computed [])) s = perform (rendered (.literal (Html.escape n))) s₁ ∧
    (Html.IsPlain n.toList →
      perform (rendered (computed [])) s = perform (rendered (.literal n)) s₁) ∧
    ((∀ filter ∈ env.filters, filter.1 ≠ "escape") →
      perform (rendered (computed [("escape", .literal "false")])) s =
        perform (rendered (.literal n)) s₁) := by
  intro computed rendered
  have hescaped : perform (rendered (computed [])) s =
      perform (rendered (.literal (Html.escape n))) s₁ :=
    perform_renderTag_assign
      (perform_render_name budget hpositive hmeaning hsubject [] rfl rfl fun _ _ => rfl)
  refine ⟨hescaped, fun hplain => ?_, fun hfilters => ?_⟩
  · rw [hescaped, Html.escape_of_isPlain hplain]
  · have hhas : ∀ filter ∈ env.filters, OrderedMap.has [("escape", "false")] filter.1 = false := by
      intro filter hfilter
      simp [OrderedMap.has, List.lookup_cons, beq_eq_false_iff_ne.2 (hfilters filter hfilter)]
    exact perform_renderTag_assign
      (perform_render_name budget hpositive hmeaning hsubject [("escape", "false")] rfl rfl hhas)

end Named

/-- The template is named by a string without special characters, or by any string that is not
escaped. -/
theorem renderTag_computed_include :
    let env : Environment :=
      { read := some fun name => .ok (if name = "n" then some "X" else none) }
    let tag : Tag := ⟨"include", none, [], [], true⟩
    let name (attributes : List (String × AttributeValue)) : AttributeValue :=
      .markup [.tag ⟨"k", none, attributes, [], true⟩]
    let scope : Scope := ⟨{ value := .object (.mapping [("k", .string "n")]) }, []⟩
    let meaning : Action (Content × Scope) := do return (← scope.lookup "k", scope)
    let rendered (value : AttributeValue) : Action String :=
      env.renderTag (env.render 2) 2 (tag.assign [] "template" value) scope
    negated? "k" = none ∧ env.meaning? ⟨"k", none, [], [], true⟩ scope = some meaning ∧
      perform meaning {} = (.ok (.string "n", scope), {}) ∧ Html.IsPlain "n".toList ∧
      (∀ filter ∈ env.filters, filter.1 ≠ "escape") ∧
      (perform (rendered (.literal "n")) {}).1 = .ok "X" ∧
      perform (rendered (name [])) {} = perform (rendered (.literal "n")) {} ∧
      perform (rendered (name [("escape", .literal "false")])) {} =
        perform (rendered (.literal "n")) {} := by
  intro env tag name scope meaning rendered
  have hpositive : negated? "k" = none := by decide
  have hmeaning : env.meaning? ⟨"k", none, [], [], true⟩ scope = some meaning :=
    meaning?_of_ordinary env rfl hpositive (by decide)
  have hsubject : perform meaning {} = (.ok (.string "n", scope), {}) := rfl
  have hplain : Html.IsPlain "n".toList := by decide
  obtain ⟨-, hname, hunescaped⟩ :=
    renderTag_computed 1 hpositive hmeaning hsubject tag [] "template"
  exact ⟨hpositive, hmeaning, hsubject, hplain, nofun, by decide +kernel, hname hplain,
    hunescaped nofun⟩

/-- An ampersand is escaped, so that the template is not found; the tags `first` and `no_k` do not
mean what the content says of these names. -/
theorem renderPage_computed_escaped :
    let env : Environment :=
      { read := some fun name => .ok (if name = "n" ∨ name = "a&b" then some "X" else none) }
    let page (content : List (String × HostValue)) (name : AttributeValue) : Except Fault String :=
      (perform (env.renderPage 4 [.tag ⟨"include", none, [("template", name)], [], true⟩]
        (.object (.mapping content))) {}).1
    let name (k : String) : AttributeValue := .markup [.tag ⟨k, none, [], [], true⟩]
    (page [("k", .string "a&b")] (.literal "a&b") = .ok "X" ∧
      page [("k", .string "a&b")] (name "k") = .ok "") ∧
    ∀ k ∈ ["first", "no_k"], page [(k, .string "n")] (.literal "n") = .ok "X" ∧
      page [(k, .string "n")] (name k) = .ok "" := by
  decide +kernel

end Environment

end TagTemplate
