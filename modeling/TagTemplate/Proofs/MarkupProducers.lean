import TagTemplate.Proofs.Calling

/-!
# Producers of markup

An object that brings no markup of its own is shown through what it has under the name `html`: a
text as it is, or a function of the tag's attributes that returns one. A producer that cannot be
called with these, fails, or returns something without a text shows nothing. The attribute `html`
itself is read before that, and if it is computed and this fails, so does the rendering.
-/

namespace TagTemplate

open Markup (Tag)
open TagTemplate.Action

namespace HostObject

/-- Reading the name `html` of an object gives this producer, null if there is none. -/
inductive Offers : HostObject → State → HostValue → State → Prop where
  | entry {entries s} : Offers (.mapping entries) s ((entries.lookup "html").getD .null) s
  | field {fields computed v s} (hfield : fields.lookup "html" = some v) :
      Offers (.record fields computed) s v s
  | computed {fields computed e v s t} (hfield : fields.lookup "html" = none)
      (hcomputed : computed.lookup "html" = some e) (heval : perform (e.eval {}) s = (.ok v, t)) :
      Offers (.record fields computed) s v t
  | withheld {fields computed e message s t} (hfield : fields.lookup "html" = none)
      (hcomputed : computed.lookup "html" = some e)
      (heval : perform (e.eval {}) s = (.error (.raised .missingAttribute message), t)) :
      Offers (.record fields computed) s .null t
  | absent {fields computed s} (hfield : fields.lookup "html" = none)
      (hcomputed : computed.lookup "html" = none) : Offers (.record fields computed) s .null s
  | unprintable {s} : Offers .unprintable s .null s

/-- The attribute `html` is computed and this fails, otherwise than by saying that there is no such
attribute. -/
inductive Fails : HostObject → State → Fault → State → Prop where
  | computed {fields computed e fault s t} (hfield : fields.lookup "html" = none)
      (hcomputed : computed.lookup "html" = some e)
      (heval : perform (e.eval {}) s = (.error fault, t))
      (hfault : ∀ message, fault ≠ .raised .missingAttribute message) :
      Fails (.record fields computed) s fault t

theorem not_fails_mapping (entries : List (String × HostValue)) (s : State) :
    ¬ ∃ fault t, (mapping entries).Fails s fault t := by
  rintro ⟨fault, t, h⟩
  cases h

theorem exists_offers_or_fails (o : HostObject) (s : State) :
    (∃ p t, o.Offers s p t) ∨ ∃ fault t, o.Fails s fault t := by
  cases o with
  | mapping entries => exact Or.inl ⟨_, _, .entry⟩
  | unprintable => exact Or.inl ⟨_, _, .unprintable⟩
  | record fields computed =>
    cases hfield : fields.lookup "html" with
    | some v => exact Or.inl ⟨_, _, .field hfield⟩
    | none =>
      cases hcomputed : computed.lookup "html" with
      | none => exact Or.inl ⟨_, _, .absent hfield hcomputed⟩
      | some e =>
        rcases heval : perform (e.eval {}) s with ⟨fault | v, t⟩
        · by_cases hfault : ∃ message, fault = .raised .missingAttribute message
          · obtain ⟨message, rfl⟩ := hfault
            exact Or.inl ⟨_, _, .withheld hfield hcomputed heval⟩
          · rw [not_exists] at hfault
            exact Or.inr ⟨_, _, .computed hfield hcomputed heval hfault⟩
        · exact Or.inl ⟨_, _, .computed hfield hcomputed heval⟩

section Reading

variable {o : HostObject} {p : HostValue} {fault : Fault} {s s₁ t : State}

theorem perform_producer_record {fields : List (String × HostValue)}
    {computed : List (String × HostExpr)}
    (hmarkup : perform (hasMarkup (.record fields computed)) s = (.ok false, s₁)) :
    perform (producer (.record fields computed)) s =
      perform (do return (← attributeOrNone (.record fields computed) "html").getD .null) s₁ := by
  unfold producer
  dsimp only
  rw [perform_bind_ok hmarkup]
  rfl

theorem perform_attributeOrNone_computed {fields : List (String × HostValue)}
    {computed : List (String × HostExpr)} {name : String} {e : HostExpr}
    {r : Except Fault HostValue}
    (hfield : fields.lookup name = none) (hcomputed : computed.lookup name = some e)
    (heval : perform (e.eval {}) s = (r, t)) :
    perform (attributeOrNone (.record fields computed) name) s =
      (match r with
      | .ok v => .ok (some v)
      | .error (.raised .missingAttribute _) => .ok none
      | .error fault => .error fault, t) := by
  have hread : perform (attribute? (.record fields computed) name) s = (r.map some, t) := by
    unfold attribute?
    simp [hfield, hcomputed, perform_map, heval]
  unfold attributeOrNone
  rw [perform_bind, perform_attempt, hread]
  cases r with
  | ok v => rfl
  | error fault =>
    cases fault with
    | raised kind message => cases kind <;> rfl
    | _ => rfl

theorem Offers.perform_producer (h : o.Offers s₁ p t)
    (hmarkup : perform o.hasMarkup s = (.ok false, s₁)) :
    perform o.producer s = (.ok p, t) := by
  cases h with
  | entry =>
    cases hmarkup
    rfl
  | unprintable =>
    cases hmarkup
    rfl
  | field hfield =>
    rw [perform_producer_record hmarkup]
    simp [attributeOrNone, attribute?, perform_bind, hfield]
  | computed hfield hcomputed heval =>
    rw [perform_producer_record hmarkup,
      perform_bind_ok (perform_attributeOrNone_computed hfield hcomputed heval)]
    rfl
  | withheld hfield hcomputed heval =>
    rw [perform_producer_record hmarkup,
      perform_bind_ok (perform_attributeOrNone_computed hfield hcomputed heval)]
    rfl
  | absent hfield hcomputed =>
    rw [perform_producer_record hmarkup]
    simp [attributeOrNone, attribute?, perform_bind, hfield, hcomputed]

theorem Fails.perform_producer (h : o.Fails s₁ fault t)
    (hmarkup : perform o.hasMarkup s = (.ok false, s₁)) :
    perform o.producer s = (.error fault, t) := by
  cases h with
  | computed hfield hcomputed heval hfault =>
    rw [perform_producer_record hmarkup, perform_bind,
      perform_attributeOrNone_computed hfield hcomputed heval]
    cases fault with
    | raised kind message =>
      cases kind with
      | missingAttribute => exact absurd rfl (hfault message)
      | _ => rfl
    | _ => rfl

end Reading

end HostObject

/-- What is made of a producer for a tag with these attributes: nothing, where it is null, where
the call is not possible or fails, and where null or something that cannot be converted to text is
returned. -/
inductive HostValue.Makes (options : Options) : HostValue → State → String → State → Prop where
  | nothing {s} : Makes options .null s "" s
  | text {text s} : Makes options (.string text) s text s
  | broken {p fault s t} (htext : ∀ text, p ≠ .string text) (hnull : p ≠ .null)
      (hcall : perform (p.invoke [.options options]) s = (.error fault, t)) :
      Makes options p s "" t
  | silent {p s t} (hcall : perform (p.invoke [.options options]) s = (.ok .null, t)) :
      Makes options p s "" t
  | shown {p v text s s' t} (hcall : perform (p.invoke [.options options]) s = (.ok v, s'))
      (hnull : v ≠ .null) (hshown : perform v.shown s' = (.ok text, t)) : Makes options p s text t
  | textless {p v fault s s' t} (hcall : perform (p.invoke [.options options]) s = (.ok v, s'))
      (hnull : v ≠ .null) (hshown : perform v.shown s' = (.error fault, t)) :
      Makes options p s "" t

namespace HostValue

theorem exists_makes (p : HostValue) (options : Options) (s : State) :
    ∃ text t, p.Makes options s text t := by
  by_cases hnull : p = .null
  · subst hnull
    exact ⟨_, _, .nothing⟩
  by_cases htext : ∃ text, p = .string text
  · obtain ⟨text, rfl⟩ := htext
    exact ⟨_, _, .text⟩
  rw [not_exists] at htext
  rcases hcall : perform (p.invoke [.options options]) s with ⟨fault | v, t⟩
  · exact ⟨_, _, .broken htext hnull hcall⟩
  by_cases hv : v = .null
  · subst hv
    exact ⟨_, _, .silent hcall⟩
  rcases hshown : perform v.shown t with ⟨fault | text, t'⟩
  · exact ⟨_, _, .textless hcall hv hshown⟩
  · exact ⟨_, _, .shown hcall hv hshown⟩

theorem Makes.of_arity {f : HostFunction} (h : 1 < f.arity.required ∨ f.arity.needsNamed = true)
    (options : Options) (s : State) : (function f).Makes options s "" s := by
  have hlength : (f.arity.select [Argument.options options]).length ≤ 1 := by
    unfold Arity.select
    split <;> simp
  have hrefused : f.arity.accepts (f.arity.select [Argument.options options]).length = false := by
    unfold Arity.accepts
    rcases h with hmore | hnamed
    · have hfew : ¬ f.arity.required ≤ (f.arity.select [Argument.options options]).length := by
        omega
      simp [hfew]
    · simp [hnamed]
  have hcall : perform ((function f).invoke [.options options]) s = (.error .badCall, s) := by
    unfold invoke HostFunction.call
    simp [hrefused]
  exact .broken nofun nofun hcall

theorem eq_function_of_invoke {p v : HostValue} {arguments : List Argument} {s t : State}
    (h : perform (p.invoke arguments) s = (.ok v, t)) : ∃ f, p = .function f := by
  cases p with
  | function f => exact ⟨f, rfl⟩
  | _ => cases h

end HostValue

section Shown

variable {object : HostObject} {p v : HostValue} {options : Options} {fault : Fault} {text : String}
  {s s₁ t : State}

theorem HostObject.perform_markup_called (hproducer : perform object.producer s = (.ok p, s₁))
    (htext : ∀ text, p ≠ .string text) (hnull : p ≠ .null) :
    perform (object.markup options) s = perform (do
      let result ← attempt do
        match ← p.invoke [.options options] with
        | .null => return ""
        | v => v.shown
      match result with
      | .ok text => return text
      | .error _ => return "") s₁ := by
  unfold HostObject.markup
  rw [perform_bind_ok hproducer]
  cases p with
  | string text => exact absurd rfl (htext text)
  | null => exact absurd rfl hnull
  | _ => rfl

theorem HostObject.perform_markup_returned (hproducer : perform object.producer s = (.ok p, s₁))
    (hcall : perform (p.invoke [.options options]) s₁ = (.ok v, t)) (hnull : v ≠ .null) :
    perform (object.markup options) s =
      (.ok ((perform v.shown t).1.toOption.getD ""), (perform v.shown t).2) := by
  obtain ⟨f, rfl⟩ := HostValue.eq_function_of_invoke hcall
  have hshown : perform (do
      match ← (HostValue.function f).invoke [.options options] with
      | .null => return ""
      | v => v.shown) s₁ = perform v.shown t := by
    rw [perform_bind_ok hcall]
    cases v with
    | null => exact absurd rfl hnull
    | _ => rfl
  rw [perform_markup_called hproducer nofun nofun, perform_bind, perform_attempt, hshown]
  cases (perform v.shown t).1 <;> rfl

theorem HostValue.Makes.perform_markup (h : p.Makes options s₁ text t)
    (hproducer : perform object.producer s = (.ok p, s₁)) :
    perform (object.markup options) s = (.ok text, t) := by
  cases h with
  | nothing =>
    unfold HostObject.markup
    rw [perform_bind_ok hproducer]
    rfl
  | text =>
    unfold HostObject.markup
    rw [perform_bind_ok hproducer]
    rfl
  | broken htext hnull hcall =>
    rw [HostObject.perform_markup_called hproducer htext hnull]
    simp [perform_bind, hcall]
  | silent hcall =>
    obtain ⟨f, rfl⟩ := HostValue.eq_function_of_invoke hcall
    rw [HostObject.perform_markup_called hproducer nofun nofun]
    simp [perform_bind, hcall]
  | shown hcall hnull hshown =>
    rw [HostObject.perform_markup_returned hproducer hcall hnull, hshown]
    rfl
  | textless hcall hnull hshown =>
    rw [HostObject.perform_markup_returned hproducer hcall hnull, hshown]
    rfl

end Shown

namespace Environment

variable (env : Environment) (render : Renderer) (budget : Nat) {tag : Tag} {options : Options}
  {scope parent : Scope} {meaning : Action (Content × Scope)} {object : HostObject}
  {s s₁ s₂ s₃ : State}

theorem perform_renderTag_object (hchildren : tag.children = [])
    (hpositive : negated? tag.name = none) (hmeaning : env.meaning? tag scope = some meaning)
    (hoptions : perform (optionsOf render scope tag) s = (.ok options, s₁))
    (hsubject : perform meaning s₁ = (.ok (.object object, parent), s₂)) :
    perform (env.renderTag render budget tag scope) s = perform (do
      let text ← object.markup options
      return orDefault (← env.finish text options) options) s₂ := by
  have hends : ∀ f, Content.object object ≠ .callable f := by rintro f ⟨⟩
  have hitems : ∀ items, Content.object object ≠ .array items := by rintro items ⟨⟩
  rw [env.perform_renderTag_of_single render budget hpositive hends hitems hmeaning hoptions
    hsubject]
  simp [showContent, hchildren, Content.inline]

end Environment

end TagTemplate
