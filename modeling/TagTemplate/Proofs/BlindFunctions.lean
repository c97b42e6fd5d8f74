import TagTemplate.Proofs.Lockstep.Host

/-!
# Functions that are blind to a name

A host function may ask the scope of its tag for any name, and for what the tag around has been
entered with. What it asks for is written in its expression, and the values that it returns are made
of what is written there and of what it finds. So it can be read off values and content whether any
function in them, or returned by one, could ask for a given name.
-/

namespace TagTemplate

mutual

/-- The expression does not ask a scope for the name, nor, unless `inner`, for what the innermost
frame of the scope was entered with; and so with the functions in the values written in it. -/
def HostExpr.isBlind (name : String) (inner : Bool) : HostExpr → Bool
  | .value v => v.isBlind name inner
  | .lookup none => inner
  | .lookup (some other) => other ≠ name
  | .own other => inner || other ≠ name
  | .get other none => other ≠ name
  | .get other (some v) => other ≠ name && v.isBlind name inner
  | .concat parts => blindParts name inner parts
  | .upper e => e.isBlind name inner
  | .length e => e.isBlind name inner
  | .records e => e.isBlind name inner
  | .list items => blindParts name inner items
  | .attempt _ e otherwise => e.isBlind name inner && otherwise.isBlind name inner
  | .cases e branches otherwise =>
    e.isBlind name inner && blindBranches name inner branches && blindOptional name inner otherwise
  | _ => true

def HostValue.isBlind (name : String) (inner : Bool) : HostValue → Bool
  | .list items => blindItems name inner items
  | .stream _ items => blindItems name inner items
  | .function f => f.isBlind name inner
  | .object o => o.isBlind name inner
  | .content c => c.isBlind name inner
  | _ => true

def HostFunction.isBlind (name : String) (inner : Bool) : HostFunction → Bool
  | ⟨_, _, body⟩ => body.isBlind name inner

def HostObject.isBlind (name : String) (inner : Bool) : HostObject → Bool
  | .mapping entries => blindEntries name inner entries
  | .record fields computed => blindEntries name inner fields && blindBranches name inner computed
  | .unprintable => true

def Content.isBlind (name : String) (inner : Bool) : Content → Bool
  | .array items => blindItems name inner items
  | .callable f => f.isBlind name inner
  | .object o => o.isBlind name inner
  | _ => true

def blindParts (name : String) (inner : Bool) : List HostExpr → Bool
  | [] => true
  | e :: es => e.isBlind name inner && blindParts name inner es

def blindBranches (name : String) (inner : Bool) : List (String × HostExpr) → Bool
  | [] => true
  | (_, e) :: es => e.isBlind name inner && blindBranches name inner es

def blindOptional (name : String) (inner : Bool) : Option HostExpr → Bool
  | some e => e.isBlind name inner
  | none => true

def blindItems (name : String) (inner : Bool) : List HostValue → Bool
  | [] => true
  | v :: vs => v.isBlind name inner && blindItems name inner vs

def blindEntries (name : String) (inner : Bool) : List (String × HostValue) → Bool
  | [] => true
  | (_, v) :: es => v.isBlind name inner && blindEntries name inner es

end

variable {name : String} {inner : Bool}

theorem blindParts_iff {es : List HostExpr} :
    blindParts name inner es ↔ ∀ e ∈ es, e.isBlind name inner := by
  induction es with
  | nil => simp [blindParts]
  | cons e es ih => simp [blindParts, ih]

theorem blindBranches_iff {es : List (String × HostExpr)} :
    blindBranches name inner es ↔ ∀ p ∈ es, p.2.isBlind name inner := by
  induction es with
  | nil => simp [blindBranches]
  | cons p es ih => rw [blindBranches, Bool.and_eq_true, ih, List.forall_mem_cons]

theorem blindOptional_iff {e : Option HostExpr} :
    blindOptional name inner e ↔ ∀ e' ∈ e, e'.isBlind name inner := by
  cases e <;> simp [blindOptional]

theorem blindItems_iff {vs : List HostValue} :
    blindItems name inner vs ↔ ∀ v ∈ vs, v.isBlind name inner := by
  induction vs with
  | nil => simp [blindItems]
  | cons v vs ih => simp [blindItems, ih]

theorem blindEntries_iff {es : List (String × HostValue)} :
    blindEntries name inner es ↔ ∀ p ∈ es, p.2.isBlind name inner := by
  induction es with
  | nil => simp [blindEntries]
  | cons p es ih => rw [blindEntries, Bool.and_eq_true, ih, List.forall_mem_cons]

theorem Content.isBlind_raw (c : Content) : c.raw.isBlind name inner = c.isBlind name inner := by
  cases c <;> rfl

theorem HostExpr.isBlind_parts {e : HostExpr} (h : e.isBlind name inner) :
    ∀ part ∈ e.parts, part.isBlind name inner := by
  cases e with
  | concat parts | list parts => exact blindParts_iff.1 h
  | upper e | length e | records e => exact List.forall_mem_singleton.2 h
  | attempt handler e otherwise =>
    simp only [isBlind, Bool.and_eq_true] at h
    exact List.forall_mem_cons.2 ⟨h.1, List.forall_mem_singleton.2 h.2⟩
  | cases e branches otherwise =>
    simp only [isBlind, Bool.and_eq_true, blindBranches_iff, blindOptional_iff] at h
    obtain ⟨⟨he, hbranches⟩, hotherwise⟩ := h
    simp only [parts, List.forall_mem_cons, List.forall_mem_append, List.forall_mem_map]
    exact ⟨he, hbranches, fun e he => hotherwise e (Option.mem_toList.1 he)⟩
  | _ => exact List.forall_mem_nil _

def HostKind.blind (name : String) (inner : Bool) : HostKind where
  value v := v.isBlind name inner
  expr e := e.isBlind name inner
  asks
    | none => inner
    | some other => other ≠ name
  asksOwn other := inner ∨ other ≠ name

theorem HostKind.content_blind (c : Content) :
    (blind name inner).content c ↔ c.isBlind name inner := by
  unfold content
  exact Eq.to_iff (congrArg (· = true) c.isBlind_raw)

theorem HostKind.blind_sound : (blind name inner).Sound where
  null := rfl
  bool _ := rfl
  number _ := rfl
  string _ := rfl
  unprintable := rfl
  list := blindItems_iff
  stream := blindItems_iff
  mapping := blindEntries_iff
  record := by
    intro fields computed
    have hblind : (HostValue.object (.record fields computed)).isBlind name inner =
        (blindEntries name inner fields && blindBranches name inner computed) := rfl
    change (HostValue.object (.record fields computed)).isBlind name inner ↔ _
    rw [hblind, Bool.and_eq_true, blindEntries_iff, blindBranches_iff]
    rfl
  function := by
    rintro ⟨_, _, body⟩
    exact Iff.rfl
  content := (content_blind _).symm
  parts := HostExpr.isBlind_parts
  literal h := h
  lookup := by
    intro other h
    cases other with
    | none => exact h
    | some other =>
      have hne : other ≠ name := of_decide_eq_true h
      exact hne
  own := by
    intro other h
    change (inner || decide (other ≠ name)) = true at h
    rw [Bool.or_eq_true, decide_eq_true_eq] at h
    exact h
  get := by
    intro other fallback h
    cases fallback with
    | none =>
      have hne : other ≠ name := of_decide_eq_true h
      exact ⟨hne, fun _ hv => by cases hv⟩
    | some v =>
      change (decide (other ≠ name) && v.isBlind name inner) = true at h
      rw [Bool.and_eq_true, decide_eq_true_eq] at h
      refine ⟨h.1, fun w hw => ?_⟩
      cases hw
      exact h.2

end TagTemplate
