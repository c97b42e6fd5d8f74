import TagTemplate.Proofs.Inlining

/-!
# Tags and their negations

Of a tag and its negation around the same text, one shows something and the other one nothing. The
name comes to some content, by way of all functions that have to be called on the way. This is the
same for both tags. If it is absent, only the negation shows the text. If it is present, the tag
shows something of it: the text itself, once or for each item, or the text of the content.
-/

namespace TagTemplate

open Markup (Node Tag)
open TagTemplate.Action

namespace Environment

theorem negated?_append {name : String} (h : name ≠ "") : negated? ("no_" ++ name) = some name := by
  have hchars : ("no_" ++ name).toList = negationMark ++ name.toList := String.toList_append
  have hlength : 0 < name.toList.length := by
    rw [List.length_pos_iff, Ne, String.toList_eq_nil_iff]
    exact h
  unfold negated?
  rw [hchars]
  simp [negationMark, hlength]

theorem negated?_eq_none {name : String} (h : ¬ negationMark <+: name.toList) :
    negated? name = none := by
  unfold negated?
  simp [h]

/-- What a name means, in an extension if one is given. There is nothing in an extension that cannot
be loaded. -/
def resolve (env : Environment) (extension : Option String) (name : String) (scope : Scope) :
    Action Content :=
  match extension with
  | none => scope.lookup name
  | some extension => do
    match ← env.extension extension scope with
    | none => return .missing
    | some home => home.own name

/-- The tag is no structural one: it is in an extension, or it negates a name, or its name is
none of theirs. -/
def LooksUp (tag : Tag) : Prop :=
  tag.extension = none → negated? tag.name = none → Structural.ofName? tag.name = none

theorem perform_renderWith_resolved (env : Environment) (render : Renderer) (budget : Nat)
    {tag : Tag} (hlooks : LooksUp tag) (options : Options) (scope : Scope) {subject : Content}
    {s t : State} (h : perform
      (env.resolve tag.extension ((negated? tag.name).getD tag.name) scope) s = (.ok subject, t)) :
    ∃ parent, perform (env.renderWith render budget tag options scope) s =
      perform (env.renderSubject render budget ⟨tag, options, scope, parent⟩
        (negated? tag.name).isSome subject) t := by
  unfold renderWith
  unfold LooksUp at hlooks
  unfold resolve at h
  cases hextension : tag.extension with
  | none =>
    rw [hextension] at h hlooks
    cases hnegated : negated? tag.name with
    | none =>
      rw [hnegated] at h
      rw [hlooks rfl hnegated]
      exact ⟨scope, perform_bind_ok h⟩
    | some name =>
      rw [hnegated] at h
      exact ⟨scope, perform_bind_ok h⟩
  | some extension =>
    rw [hextension] at h
    unfold renderExtensionTag
    dsimp only at h ⊢
    rw [perform_bind] at h
    rcases hfound : perform (env.extension extension scope) s with ⟨_ | _ | home, t'⟩
    · rw [hfound] at h
      cases h
    · rw [hfound] at h
      cases h
      exact ⟨scope, perform_bind_ok hfound⟩
    · rw [hfound] at h
      refine ⟨home, ?_⟩
      rw [perform_bind_ok hfound]
      exact perform_bind_ok h

end Environment

def HostFunction.outcome (f : HostFunction) (arguments : List Argument) : Action Content := do
  Content.ofHost (← (HostValue.function f).invoke arguments)

/-- So many functions are called one after the other, each returned by the one before, until one
returns something else. -/
inductive Content.Settles (arguments : List Argument) :
    Nat → Content → State → Content → State → Prop where
  | done {c s} : (∀ f, c ≠ .callable f) → Settles arguments 0 c s c s
  | call {n f s c t c' t'} : perform (f.outcome arguments) s = (.ok c, t) →
      Settles arguments n c t c' t' → Settles arguments (n + 1) (.callable f) s c' t'

namespace Content.Settles

variable {arguments : List Argument} {n : Nat} {c c' : Content} {s t : State}

theorem not_callable (h : Settles arguments n c s c' t) : ∀ f, c' ≠ .callable f := by
  induction h with
  | done h => exact h
  | call _ _ ih => exact ih

theorem settle {f : HostFunction} {o : Occurrence} {render : Renderer}
    (h : Settles (o.arguments render) n (.callable f) s c t) {budget : Nat} (hn : n ≤ budget) :
    perform (o.settle render budget f) s = (.ok c, t) := by
  generalize hsubject : Content.callable f = subject at h
  -- along the calls, each of which takes one from the budget
  induction h generalizing f budget with
  | done hc => exact absurd hsubject.symm (hc f)
  | @call n g s d t c' t' hcall hrest ih =>
    cases hsubject
    match budget, hn with
    | budget + 1, hn =>
      unfold Occurrence.settle
      have hfirst : perform (o.call render g) s = (.ok d, t) := hcall
      rw [perform_bind_ok hfirst]
      cases d with
      | callable g => exact ih (Nat.le_of_succ_le_succ hn) rfl
      | _ =>
        cases hrest
        rfl

end Content.Settles

/-- The content that an item of a repetition stands for. A function is called, but no function that
it returns. -/
def HostValue.itemOutcome (v : HostValue) (arguments : List Argument) : Action Content := do
  match ← Content.ofHost v with
  | .callable f => f.outcome arguments
  | c => return c

/-- All items of an array stand for some content. -/
def Content.ItemsSettle (c : Content) (arguments : List Argument) (s : State) : Prop :=
  ∀ items, c = .array items →
    ∃ cs t, perform (items.mapM fun v => v.itemOutcome arguments) s = (.ok cs, t)

/-- The content is no number with too many digits to be written. -/
def Content.IsWritable (c : Content) : Prop := ∀ n, c = .number n → n.isShowable

theorem Binary64.Decimal.text_ne_nil (x : Binary64.Decimal) : x.text ≠ [] := by
  unfold text
  dsimp only
  split
  · split
    · exact List.cons_ne_nil _ _
    · split
      · simp
      · simp
  · split
    · simp
    · simp

theorem Binary64.text_ne_empty (x : Binary64) : x.text ≠ "" := by
  cases x with
  | nan => decide
  | infinity negative => cases negative <;> decide
  | finite negative m e =>
    have hbody : (if m = 0 then ['0', '.', '0'] else (shortest m e).text) ≠ [] := by
      split
      · exact List.cons_ne_nil _ _
      · exact (shortest m e).text_ne_nil
    unfold text
    dsimp only
    rw [Ne, String.ofList_eq_empty_iff]
    split
    · exact List.cons_ne_nil _ _
    · exact hbody

theorem Number.text_ne_empty (n : Number) : n.text ≠ "" := by
  cases n with
  | integer n =>
    change toString n ≠ ""
    rw [Int.toString_eq_repr, Int.repr_eq_if]
    split
    · exact Nat.repr_ne_empty
    · simp
  | float x => exact x.text_ne_empty

theorem join_replicate_ne_empty {text : String} (h : text ≠ "") {n : Nat} (hn : n ≠ 0) :
    String.join (List.replicate n text) ≠ "" := by
  cases n with
  | zero => exact absurd rfl hn
  | succ n =>
    rw [List.replicate_succ, String.join_cons]
    simp [h]

section Showing

variable (env : Environment) {render : Renderer} {text : String}
  (hrender : ∀ scope, render [.text text] scope = pure text) (htext : text ≠ "") {o : Occurrence}
  (hchildren : o.tag.children = [.text text]) (hoptions : o.options = []) {c : Content}
  {s : State}

include hrender htext hchildren hoptions

omit htext hoptions in
theorem perform_items_text {items : List HostValue} {cs : List Content} {t : State}
    (h : perform (items.mapM fun v => v.itemOutcome (o.arguments render)) s = (.ok cs, t))
    (length start : Nat) :
    perform ((items.zipIdx start).mapM fun p => o.item render ⟨p.2, length⟩ p.1) s =
      (.ok (List.replicate items.length text), t) := by
  have hitem : ∀ v i, o.item render i v = do
      let _ ← v.itemOutcome (o.arguments render)
      return text := by
    intro v i
    unfold Occurrence.item
    rw [hchildren]
    exact bind_congr fun c => hrender _
  simp only [hitem]
  induction items generalizing start s cs with
  | nil =>
    cases h
    rfl
  | cons v items ih =>
    obtain ⟨c, s₁, cs', rfl, hv, hitems⟩ := exists_of_perform_mapM_cons h
    rw [List.zipIdx_cons, List.mapM_cons, bind_assoc, perform_bind_ok hv, pure_bind,
      perform_bind_ok (ih hitems (start + 1))]
    rfl

omit htext in
theorem perform_repetition_text {items : List HostValue} {cs : List Content} {t : State}
    (h : perform (items.mapM fun v => v.itemOutcome (o.arguments render)) s = (.ok cs, t)) :
    perform (env.repetition render o items) s =
      (.ok (String.join (List.replicate items.length text)), t) := by
  unfold Environment.repetition
  rw [perform_bind_ok (perform_items_text hrender hchildren h items.length 0), hoptions,
    Html.join_of_no_options, env.finish_of_no_options]
  rfl

theorem showContent_text (hc : ∀ f, c ≠ .callable f)
    (hitems : c.ItemsSettle (o.arguments render) s) :
    ∃ out t, perform (env.showContent render o c) s = (.ok out, t) ∧
      (out = "" ↔ c.present = false) := by
  have hchild : o.tag.children.isEmpty = false := by
    rw [hchildren]
    rfl
  have hframe : (do env.finish (← render o.tag.children (o.parent.enter c)) o.options) =
      pure text := by
    rw [hchildren, hrender, pure_bind, hoptions, env.finish_of_no_options]
  cases c with
  | missing => exact ⟨"", s, rfl, by simp [Content.present]⟩
  | null => exact ⟨"", s, rfl, by simp [Content.present]⟩
  | callable f => exact absurd rfl (hc f)
  | bool b =>
    unfold Environment.showContent
    rw [hchild]
    cases b with
    | false => exact ⟨"", s, rfl, by simp [Content.present]⟩
    | true =>
      refine ⟨text, s, ?_, by simp [Content.present, htext]⟩
      unfold Occurrence.enclosed
      rw [hchildren, hrender, hoptions]
      simp [env.finish_of_no_options]
  | number n =>
    refine ⟨text, s, ?_, by simp [Content.present, htext]⟩
    unfold Environment.showContent
    simp [hchild, hframe]
  | object object =>
    refine ⟨text, s, ?_, by simp [Content.present, htext]⟩
    unfold Environment.showContent
    simp [hchild, hframe]
  | string value =>
    by_cases hvalue : value = ""
    · subst hvalue
      exact ⟨"", s, rfl, by simp [Content.present]⟩
    · refine ⟨text, s, ?_, by simp [Content.present, htext, hvalue]⟩
      unfold Environment.showContent
      simp [hchild, hframe, hvalue]
  | array items =>
    cases items with
    | nil => exact ⟨"", s, rfl, by simp [Content.present]⟩
    | cons item items =>
      obtain ⟨cs, t, hcs⟩ := hitems _ rfl
      refine ⟨String.join (List.replicate (items.length + 1) text), t, ?_, ?_⟩
      · unfold Environment.showContent
        rw [hoptions]
        exact perform_repetition_text env hrender hchildren hoptions hcs
      · have hne := join_replicate_ne_empty htext (Nat.succ_ne_zero items.length)
        simpa [Content.present] using hne

theorem showReturned_text (hc : ∀ f, c ≠ .callable f) (hwritable : c.IsWritable)
    (hitems : c.ItemsSettle (o.arguments render) s) :
    ∃ out t, perform (env.showReturned render o c) s = (.ok out, t) ∧
      (out = "" ↔ c.present = false) := by
  have hchild : o.tag.children.isEmpty = false := by
    rw [hchildren]
    rfl
  have hshow := showContent_text env hrender htext hchildren hoptions hc hitems
  unfold Environment.showReturned
  rw [hchild]
  cases c with
  -- a returned scalar is shown itself, and not the text that the tag encloses
  | string value =>
    rw [hoptions]
    refine ⟨value, s, by simp [env.finish_of_no_options], ?_⟩
    simp [Content.present]
  | number n =>
    rw [hoptions]
    have hwritten : n.written = pure n.text := if_pos (hwritable n rfl)
    refine ⟨n.text, s, by simp [env.finish_of_no_options, hwritten], ?_⟩
    simp [Content.present, n.text_ne_empty]
  | _ => exact hshow

theorem showSubject_text {n budget : Nat} {subject : Content} {t : State}
    (hsettles : subject.Settles (o.arguments render) n s c t) (hn : n ≤ budget)
    (hwritable : 0 < n → c.IsWritable) (hitems : c.ItemsSettle (o.arguments render) t) :
    ∃ out t', perform (env.showSubject render budget o subject) s = (.ok out, t') ∧
      (out = "" ↔ c.present = false) := by
  cases hsettles with
  | done hc =>
    have hshow := showContent_text env hrender htext hchildren hoptions hc hitems
    cases c with
    | callable f => exact absurd rfl (hc f)
    | _ => exact hshow
  | call hcall hrest =>
    have hall := Content.Settles.call hcall hrest
    unfold Environment.showSubject
    dsimp only
    rw [perform_bind_ok (hall.settle hn)]
    exact showReturned_text env hrender htext hchildren hoptions hall.not_callable
      (hwritable (Nat.succ_pos _)) hitems

end Showing

theorem perform_isPresent {o : Occurrence} {render : Renderer} {n budget : Nat}
    {subject c : Content} {s t : State} (hsettles : subject.Settles (o.arguments render) n s c t)
    (hn : n ≤ budget) :
    perform (Environment.isPresent render budget o subject) s = (.ok c.present, t) := by
  cases hsettles with
  | done hc =>
    cases subject with
    | callable f => exact absurd rfl (hc f)
    | _ => rfl
  | call hcall hrest =>
    have hall := Content.Settles.call hcall hrest
    unfold Environment.isPresent
    dsimp only
    rw [perform_bind_ok (hall.settle hn)]
    rfl

/-- What a tag without attributes passes to a function from around a text. -/
def argumentsAround (text : String) (scope : Scope) : List Argument :=
  [.options [], .enclosing (pure text), .scope scope.access]

theorem arguments_around {render : Renderer} {text : String}
    (hrender : ∀ scope, render [.text text] scope = pure text) (name : String)
    (extension : Option String) (scope parent : Scope) :
    Occurrence.arguments ⟨⟨name, extension, [], [.text text], false⟩, [], scope, parent⟩ render =
      argumentsAround text scope := by
  unfold Occurrence.arguments Occurrence.enclosed argumentsAround
  rw [hrender]

theorem render_enclosed (env : Environment) {calls budget : Nat} (hbudget : calls < budget)
    (text : String) (scope : Scope) : env.render budget [.text text] scope = pure text := by
  obtain ⟨k, rfl⟩ := Nat.exists_eq_add_of_lt hbudget
  exact env.render_text _ scope text

section Tags

variable {env : Environment} {name text : String} {extension : Option String} {scope : Scope}
  {s s₁ s₂ : State} {subject c : Content} {calls budget : Nat}
  (hsubject : perform (env.resolve extension name scope) s = (.ok subject, s₁))
  (hsettles : subject.Settles (argumentsAround text scope) calls s₁ c s₂) (hbudget : calls < budget)

include hsubject hsettles hbudget

theorem perform_render_around (hpositive : ¬ Environment.negationMark <+: name.toList)
    (htext : text ≠ "") (hlooks : extension = none → Environment.Structural.ofName? name = none)
    (hwritable : 0 < calls → c.IsWritable)
    (hitems : c.ItemsSettle (argumentsAround text scope) s₂) :
    ∃ out t, perform (env.render (budget + 1)
        [.tag ⟨name, extension, [], [.text text], false⟩] scope) s = (.ok out, t) ∧
      (out = "" ↔ c.present = false) := by
  have hrender := render_enclosed env hbudget text
  have hnone := Environment.negated?_eq_none hpositive
  let tag : Tag := ⟨name, extension, [], [.text text], false⟩
  have hresolve : perform (env.resolve tag.extension
      ((Environment.negated? tag.name).getD tag.name) scope) s = (.ok subject, s₁) := by
    rw [hnone]
    exact hsubject
  obtain ⟨parent, hwith⟩ := env.perform_renderWith_resolved (env.render budget) budget
    (fun hextension _ => hlooks hextension) [] scope hresolve
  have harguments := arguments_around hrender name extension scope parent
  rw [env.render_tag, env.renderTag_of_no_attributes _ _ rfl, hwith, hnone]
  rw [← harguments] at hsettles hitems
  exact showSubject_text env (o := ⟨tag, [], scope, parent⟩) hrender htext rfl rfl hsettles
    (Nat.le_of_lt hbudget) hwritable hitems

theorem perform_render_negated (hname : name ≠ "") :
    perform (env.render (budget + 1)
      [.tag ⟨"no_" ++ name, extension, [], [.text text], false⟩] scope) s =
        (.ok (if c.present then "" else text), s₂) := by
  have hrender := render_enclosed env hbudget text
  have hsome := Environment.negated?_append hname
  let tag : Tag := ⟨"no_" ++ name, extension, [], [.text text], false⟩
  have hresolve : perform (env.resolve tag.extension
      ((Environment.negated? tag.name).getD tag.name) scope) s = (.ok subject, s₁) := by
    rw [hsome]
    exact hsubject
  have hlooks : Environment.LooksUp tag := by
    intro _ hnone
    rw [hsome] at hnone
    cases hnone
  obtain ⟨parent, hwith⟩ := env.perform_renderWith_resolved (env.render budget) budget hlooks []
    scope hresolve
  have harguments := arguments_around hrender ("no_" ++ name) extension scope parent
  rw [env.render_tag, env.renderTag_of_no_attributes _ _ rfl, hwith, hsome]
  rw [← harguments] at hsettles
  unfold Environment.renderSubject
  dsimp only [Option.isSome_some]
  rw [if_pos rfl, perform_bind_ok (perform_isPresent hsettles (Nat.le_of_lt hbudget))]
  split
  · rfl
  · unfold Occurrence.enclosed
    rw [hrender]
    rfl

/-- Around a text and in the same state, either a tag shows something or its negation shows the
text, and never both. What the name comes to decides: the tag shows something if it is present. What
functions came to has to be writable, as it is shown itself. -/
theorem render_or_negation (hname : name ≠ "")
    (hpositive : ¬ Environment.negationMark <+: name.toList) (htext : text ≠ "")
    (hlooks : extension = none → Environment.Structural.ofName? name = none)
    (hwritable : 0 < calls → c.IsWritable)
    (hitems : c.ItemsSettle (argumentsAround text scope) s₂) :
    ∃ out negated t,
      perform (env.render (budget + 1)
        [.tag ⟨name, extension, [], [.text text], false⟩] scope) s = (.ok out, t) ∧
      perform (env.render (budget + 1)
        [.tag ⟨"no_" ++ name, extension, [], [.text text], false⟩] scope) s = (.ok negated, s₂) ∧
      (c.present ∧ out ≠ "" ∧ negated = "" ∨ ¬ c.present ∧ out = "" ∧ negated = text) := by
  obtain ⟨out, t, hout, hempty⟩ :=
    perform_render_around hsubject hsettles hbudget hpositive htext hlooks hwritable hitems
  have hnegated := perform_render_negated hsubject hsettles hbudget hname
  refine ⟨out, _, t, hout, hnegated, ?_⟩
  cases hpresent : c.present with
  | true =>
    left
    rw [hpresent] at hempty
    exact ⟨rfl, by simpa using hempty, rfl⟩
  | false =>
    right
    exact ⟨Bool.false_ne_true, hempty.2 hpresent, rfl⟩

end Tags

/-- A function that returns a function that returns an array, with nothing, an empty text and a
function that gives back the enclosed text as its items. -/
theorem render_or_negation_functions :
    let give : HostFunction := ⟨⟨2, none, false⟩, none, .enclosing⟩
    let items := [HostValue.null, .string "", .function give]
    let inner : HostFunction := ⟨⟨0, none, false⟩, none, .value (.list items)⟩
    let outer : HostFunction := ⟨⟨1, none, false⟩, none, .value (.function inner)⟩
    let scope : Scope := ⟨{ value := .null, bindings := [("x", .callable outer)] }, []⟩
    perform (Environment.resolve {} none "x" scope) {} = (.ok (.callable outer), {}) ∧
      Content.Settles (argumentsAround "t" scope) 2 (.callable outer) {} (.array items) {} ∧
      Content.IsWritable (.array items) ∧
      Content.ItemsSettle (.array items) (argumentsAround "t" scope) {} ∧
      (perform (Environment.render {} 4 [.tag ⟨"x", none, [], [.text "t"], false⟩] scope) {}).1 =
        .ok "ttt" ∧
      ∃ out negated t,
        perform (Environment.render {} 4 [.tag ⟨"x", none, [], [.text "t"], false⟩] scope) {} =
          (.ok out, t) ∧
        perform (Environment.render {} 4
          [.tag ⟨"no_" ++ "x", none, [], [.text "t"], false⟩] scope) {} = (.ok negated, {}) ∧
        ((Content.array items).present ∧ out ≠ "" ∧ negated = "" ∨
          ¬ (Content.array items).present ∧ out = "" ∧ negated = "t") := by
  intro give items inner outer scope
  have hsubject : perform (Environment.resolve {} none "x" scope) {} =
      (.ok (.callable outer), {}) := rfl
  have hsettles : Content.Settles (argumentsAround "t" scope) 2 (.callable outer) {}
      (.array items) {} := .call rfl (.call rfl (.done nofun))
  have hitems : Content.ItemsSettle (.array items) (argumentsAround "t" scope) {} := by
    rintro _ ⟨⟩
    exact ⟨[.null, .string "", .string "t"], {}, rfl⟩
  refine ⟨hsubject, hsettles, nofun, hitems, by decide +kernel, ?_⟩
  exact render_or_negation hsubject hsettles (by decide) (by decide) (by decide) (by decide)
    (fun _ => rfl) (fun _ => nofun) hitems

/-- Of an array an item raises an error when it is asked for its markup, and a function returns a
number with too many digits. Both tags fail, though the negation finds something present. -/
theorem render_or_negation_fails :
    let markup : HostObject := .record [] [("__html__", .raise .general "boom")]
    let many := HostValue.number (.integer (Int.ofNat (Nat.pow 10 Number.maxDigits)))
    let give : HostFunction := ⟨⟨0, none, false⟩, none, .value many⟩
    let scope (x : Content) : Scope := ⟨{ value := .null, bindings := [("x", x)] }, []⟩
    let shown (name : String) (x : Content) : Except Fault String :=
      (perform (Environment.render {} 2 [.tag ⟨name, none, [], [.text "t"], false⟩] (scope x)) {}).1
    (shown "x" (.array [.object markup]) = .error (.raised .general "boom") ∧
      shown "no_x" (.array [.object markup]) = .ok "") ∧
    (∃ c, Content.Settles (argumentsAround "t" (scope (.callable give))) 1 (.callable give) {} c {}) ∧
    shown "x" (.callable give) = .error .badNumber ∧ shown "no_x" (.callable give) = .ok "" := by
  intro markup many give scope shown
  exact ⟨⟨by decide +kernel, by decide +kernel⟩, ⟨_, .call rfl (.done nofun)⟩,
    by decide +kernel, by decide +kernel⟩

end TagTemplate
