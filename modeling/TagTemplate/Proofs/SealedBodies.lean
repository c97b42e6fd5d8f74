import TagTemplate.Proofs.Lockstep.Uniform

/-!
# The name of an item in the body of an array

An array that is shown as a whole has no items one by one, so that inside of it the name of an item
should mean only what is entered there. Beside the rendering stands one in which bodies are sealed:
where the search for that name would leave a body and find something, it ends with an alarm. The two
renderings are the same unless the alarm goes off, and it can go off: the tag for the item looks
whether it stands in the body itself, but not whether something else has been entered in between.
-/

namespace TagTemplate

open Markup (Node Tag)
open TagTemplate.Action

/-- Divides frames at the nearest array that is shown as a whole: those entered in its body, and the
array with what is around it. There is none where an item of a repetition is nearer. -/
def Scope.divide? : List Frame → Option (List Frame × List Frame)
  | [] => none
  | f :: fs =>
    if f.collection then some ([], f :: fs)
    else if f.iteration.isSome then none
    else (divide? fs).map fun p => (f :: p.1, p.2)

namespace Environment

variable (env : Environment) (alarm : Fault)

/-- Shows the item of a repetition. In the body of an array that is shown as a whole only what has
been entered there has a say. -/
def renderItemValueSealed (render : Renderer) (budget : Nat) (o : Occurrence) : Action String :=
  match Scope.divide? o.scope.frames with
  | none => do env.showSubject render budget o (← o.scope.lookup "value")
  | some ([], _) => return ""
  | some (inside, around) => do
    match ← Scope.lookupIn "value" inside with
    | .missing =>
      match ← Scope.lookupIn "value" around with
      | .missing => return ""
      | _ => fail alarm
    | c => env.showSubject render budget o c

def renderTagSealed (render : Renderer) (budget : Nat) (tag : Tag) (scope : Scope) :
    Action String := do
  let options ← optionsOf render scope tag
  let text ←
    if tag.extension = none ∧ tag.name = "value" then
      env.renderItemValueSealed alarm render budget ⟨tag, options, scope, scope⟩
    else env.renderWith render budget tag options scope
  return orDefault text options

def renderSealed : Nat → Renderer
  | 0 => fun _ _ => fail .exhausted
  | budget + 1 => fun nodes scope => do
    return String.join (← nodes.mapM fun
      | .text value => return value
      | .tag tag => env.renderTagSealed alarm (renderSealed budget) budget tag scope)

end Environment

namespace Scope

theorem append_of_divide? {fs inside around : List Frame}
    (h : divide? fs = some (inside, around)) : fs = inside ++ around := by
  induction fs generalizing inside with
  | nil => cases h
  | cons f fs ih =>
    unfold divide? at h
    split at h
    · cases h
      rfl
    · split at h
      · cases h
      · obtain ⟨p, hp, heq⟩ := Option.map_eq_some_iff.1 h
        cases heq
        rw [ih hp, List.cons_append]

theorem collection_iff {scope : Scope} :
    scope.frame.collection ↔ ∃ around, divide? scope.frames = some ([], around) := by
  unfold frames divide?
  constructor
  · intro h
    rw [if_pos h]
    exact ⟨_, rfl⟩
  · rintro ⟨around, h⟩
    split at h
    · assumption
    · split at h
      · cases h
      · obtain ⟨p, -, heq⟩ := Option.map_eq_some_iff.1 h
        cases heq

theorem lookupIn_append (name : String) (inside around : List Frame) :
    lookupIn name (inside ++ around) = (do
      match ← lookupIn name inside with
      | .missing => lookupIn name around
      | c => return c) := by
  induction inside with
  | nil => rfl
  | cons f fs ih =>
    simp only [List.cons_append, lookupIn, bind_assoc]
    refine bind_congr fun c => ?_
    cases c with
    | missing => exact ih
    | _ => rfl

end Scope

namespace Lockstep

variable {alarm : Fault} {env : Environment}

section Tags

variable {render render' : Renderer}
  (hr : ∀ ns scope, (sameUntil (· = alarm)).Agrees (render ns scope) (render' ns scope))

include hr

variable (env) in
theorem pairing_sealed (budget : Nat) : (sameUntil (· = alarm)).Pairing .same (SameTree fun _ => True)
    env env render render' budget budget :=
  pairing_sameTree sameUntil_host rfl
    (fun _ => sameUntil_closed.exported env (fun _ _ _ _ _ => trivial) _) trivial
    (fun ns scope _ => hr ns scope) budget

theorem sealed_renderItemValue (budget : Nat) (tag : Tag) (options : Options) (scope : Scope) :
    (sameUntil (· = alarm)).Agrees
      (env.renderItemValueSealed alarm render budget ⟨tag, options, scope, scope⟩)
      (env.renderItemValue render' budget ⟨tag, options, scope, scope⟩) := by
  let o : Occurrence := ⟨tag, options, scope, scope⟩
  have ho : OccurrenceAgrees .same (SameTree fun _ => True) o o :=
    .of_tags (sameTree_tag fun _ _ => trivial) options rfl rfl
  have hshow : ∀ c, (sameUntil (· = alarm)).Agrees (env.showSubject render budget o c)
      (env.showSubject render' budget o c) :=
    fun c => (pairing_sealed env hr budget).showSubject ho trivial
  unfold Environment.renderItemValueSealed Environment.renderItemValue
  dsimp only
  cases hdivide : Scope.divide? scope.frames with
  | none =>
    have hframe : ¬ scope.frame.collection := by
      rw [Scope.collection_iff, hdivide]
      nofun
    rw [if_neg hframe]
    exact Agrees.bind (sameUntil_host.lookupIn "value" _) hshow
  | some p =>
    obtain ⟨_ | ⟨f, inside⟩, around⟩ := p
    · rw [if_pos (Scope.collection_iff.2 ⟨around, hdivide⟩)]
      exact agrees_pure ""
    · have hframe : ¬ scope.frame.collection := by
        rw [Scope.collection_iff, hdivide]
        nofun
      rw [if_neg hframe, Scope.lookup, Scope.append_of_divide? hdivide, Scope.lookupIn_append]
      simp only [bind_assoc]
      refine Agrees.bind (sameUntil_host.lookupIn "value" _) fun c => ?_
      cases c with
      | missing =>
        -- Here the search goes on around the body, and what it finds sets off the alarm.
        refine Agrees.bind (sameUntil_host.lookupIn "value" _) fun c => ?_
        cases c with
        | missing => exact agrees_pure ""
        | _ => exact relates_of_excused rfl
      | _ => exact hshow _

theorem sealed_renderTag (budget : Nat) (tag : Tag) (scope : Scope) :
    (sameUntil (· = alarm)).Agrees (env.renderTagSealed alarm render budget tag scope)
      (env.renderTag render' budget tag scope) := by
  have hp := pairing_sealed env hr budget
  have htag : TagAgrees (SameTree fun _ => True) tag tag := sameTree_tag fun _ _ => trivial
  refine Relates.bind (hp.optionsOf htag rfl) ?_
  rintro options _ ⟨rfl, hfollows⟩
  by_cases hvalue : tag.extension = none ∧ tag.name = "value"
  · rw [if_pos hvalue,
      env.renderWith_structural render' budget .value hvalue.1 hvalue.2 options scope]
    exact (sealed_renderItemValue hr budget tag options scope).map
  · rw [if_neg hvalue]
    exact (hp.renderWith_same htag ((sameUntil_uniform _ env).handlers hr tag) hfollows scope).map

end Tags

theorem sealed_render (budget : Nat) : ∀ ns scope,
    (sameUntil (· = alarm)).Agrees (env.renderSealed alarm budget ns scope)
      (env.render budget ns scope) := by
  induction budget with
  | zero =>
    intro ns scope
    exact relates_fail trivial
  | succ budget ih =>
    intro ns scope
    refine Agrees.map (agrees_mapM (List.forall₂_same.2 fun _ _ => rfl) ?_)
    rintro node _ rfl
    cases node with
    | text value => exact agrees_pure value
    | tag tag => exact sealed_renderTag ih budget tag scope

end Lockstep

/-- The tag for an item shows only what has been entered in the body of an array that is shown as a
whole, unless at some point something else has been entered there and only what is around the body
gives the name a meaning. The alarm for that is any error that host code lets through. -/
theorem render_sealed (env : Environment) (alarm : Fault) (budget : Nat) (nodes : List Node)
    (scope : Scope) (s : State) (hlets : s.host.program.LetsThrough (· = alarm)) :
    (perform (env.renderSealed alarm budget nodes scope) s).1 = .error alarm ∨
      perform (env.render budget nodes scope) s =
        perform (env.renderSealed alarm budget nodes scope) s := by
  have ho : (Lockstep.sameUntil (· = alarm)).Outcome Eq
      (perform (env.renderSealed alarm budget nodes scope) s)
      (perform (env.render budget nodes scope) s) :=
    Lockstep.sealed_render budget nodes scope s s ⟨rfl, hlets⟩
  generalize perform (env.renderSealed alarm budget nodes scope) s = r at ho ⊢
  generalize perform (env.render budget nodes scope) s = r' at ho ⊢
  cases ho with
  | ok hx hst =>
    obtain ⟨rfl, -⟩ := hst
    subst hx
    exact .inr rfl
  | error _ hst =>
    obtain ⟨rfl, -⟩ := hst
    exact .inr rfl
  | excused he =>
    subst he
    exact .inl rfl

theorem render_sealed_body :
    let value : Node := .tag ⟨"value", none, [], [], true⟩
    let whole : Node := .tag ⟨"xs", none, [("repeat", .literal "false")], [value], false⟩
    let scope : Scope := { frame := { value := .object (.mapping [("xs", .list [.string "a"])]) } }
    HostProgram.LetsThrough {} (· = Fault.unwritable) ∧
      (perform (Environment.render {} 4 [whole] scope) {}).1 =
        (perform (Environment.renderSealed {} .unwritable 4 [whole] scope) {}).1 := by
  intro value whole scope
  have hlets : HostProgram.LetsThrough {} (· = Fault.unwritable) := by
    rintro _ rfl handler hcaught
    cases hcaught
  have hquiet : (perform (Environment.renderSealed {} .unwritable 4 [whole] scope) {}).1 =
      .ok "" := by decide +kernel
  refine ⟨hlets, ?_⟩
  rcases render_sealed {} .unwritable 4 [whole] scope {} hlets with halarm | hsame
  · rw [hquiet] at halarm
    cases halarm
  · rw [hsame]

/-- Directly in the body of an array that is shown as a whole the tag for an item shows nothing. In
an object that is entered there, it shows what its name means around the array. -/
theorem render_sealed_outer :
    let value : Node := .tag ⟨"value", none, [], [], true⟩
    let object : Node := .tag ⟨"o", none, [], [value], false⟩
    let whole (body : List Node) : Node :=
      .tag ⟨"xs", none, [("repeat", .literal "false")], body, false⟩
    let content : HostValue := .object (.mapping [("xs", .list [.string "a"]),
      ("o", .object (.mapping [("a", .number (.integer 1))])), ("value", .string "outer")])
    (perform (Environment.renderPage {} 4 [whole [value]] content) {}).1 = .ok "" ∧
      (perform (Environment.renderPage {} 4 [whole [object]] content) {}).1 = .ok "outer" := by
  intro value object whole content
  refine ⟨?_, ?_⟩
  · decide +kernel
  · decide +kernel

end TagTemplate
