import TagTemplate.Proofs.Fetching

/-!
# Data

Values without functions, streams and computed attributes are the same whenever they are looked at,
and looking at them does not touch the state of a rendering.
-/

namespace TagTemplate

open TagTemplate.Action

mutual

/-- The value has the property, and so has everything inside it. -/
def HostValue.every (p : HostValue → Bool) : HostValue → Bool
  | .list items => p (.list items) && everyItem p items
  | .stream id items => p (.stream id items) && everyItem p items
  | .object o => p (.object o) && o.every p
  | v => p v

def HostObject.every (p : HostValue → Bool) : HostObject → Bool
  | .mapping entries => everyEntry p entries
  | .record fields _ => everyEntry p fields
  | .unprintable => true

def everyItem (p : HostValue → Bool) : List HostValue → Bool
  | [] => true
  | v :: vs => v.every p && everyItem p vs

def everyEntry (p : HostValue → Bool) : List (String × HostValue) → Bool
  | [] => true
  | (_, v) :: entries => v.every p && everyEntry p entries

end

/-- Nothing happens when the value is looked at, and there is nothing to call. -/
def HostValue.isPlain : HostValue → Bool
  | .stream .. | .function _ | .content _ => false
  | .object (.record _ computed) => computed.isEmpty
  | _ => true

def HostValue.isDatum : HostValue → Bool
  | .null | .bool _ | .string _ | .list _ | .object (.mapping _) => true
  | .number n => n.isShowable
  | _ => false

/-- The value is built of null, scalars, lists and mappings only. -/
def HostValue.isData (v : HostValue) : Bool := v.every HostValue.isDatum

variable {p : HostValue → Bool}

theorem HostValue.every_self {v : HostValue} (h : v.every p) : p v := by
  cases v with
  | list items =>
    rw [HostValue.every, Bool.and_eq_true] at h
    exact h.1
  | stream id items =>
    rw [HostValue.every, Bool.and_eq_true] at h
    exact h.1
  | object o =>
    rw [HostValue.every, Bool.and_eq_true] at h
    exact h.1
  | _ => exact h

theorem everyItem_iff {items : List HostValue} : everyItem p items ↔ ∀ v ∈ items, v.every p := by
  induction items with
  | nil => simp [everyItem]
  | cons v vs ih => simp [everyItem, ih]

theorem everyEntry_lookup {entries : List (String × HostValue)} (h : everyEntry p entries)
    {name : String} {v : HostValue} (hv : entries.lookup name = some v) : v.every p := by
  induction entries with
  | nil => cases hv
  | cons e entries ih =>
    obtain ⟨key, w⟩ := e
    rw [everyEntry, Bool.and_eq_true] at h
    rw [List.lookup_cons] at hv
    split at hv
    · cases hv
      exact h.1
    · exact ih h.2 hv

mutual

theorem HostValue.refresh_eq_pure (hp : ∀ id items, p (.stream id items) = false) :
    (v : HostValue) → v.every p → v.refresh = pure v
  | .list items, h => by
    rw [HostValue.every, Bool.and_eq_true] at h
    rw [HostValue.refresh, refreshItems_eq_pure hp items h.2, pure_bind]
  | .stream id items, h => by
    have hstream := HostValue.every_self h
    rw [hp] at hstream
    cases hstream
  | .object o, h => by
    rw [HostValue.every, Bool.and_eq_true] at h
    rw [HostValue.refresh, HostObject.refresh_eq_pure hp o h.2, pure_bind]
  | .null, _ => rfl
  | .bool _, _ => rfl
  | .number _, _ => rfl
  | .string _, _ => rfl
  | .function _, _ => rfl
  | .content _, _ => rfl

theorem HostObject.refresh_eq_pure (hp : ∀ id items, p (.stream id items) = false) :
    (o : HostObject) → o.every p → o.refresh = pure o
  | .mapping entries, h => by
    rw [HostObject.refresh, refreshEntries_eq_pure hp entries h, pure_bind]
  | .record fields _, h => by
    rw [HostObject.refresh, refreshEntries_eq_pure hp fields h, pure_bind]
  | .unprintable, _ => rfl

theorem refreshItems_eq_pure (hp : ∀ id items, p (.stream id items) = false) :
    (vs : List HostValue) → everyItem p vs → refreshItems vs = pure vs
  | [], _ => rfl
  | v :: vs, h => by
    rw [everyItem, Bool.and_eq_true] at h
    rw [refreshItems, HostValue.refresh_eq_pure hp v h.1, pure_bind,
      refreshItems_eq_pure hp vs h.2, pure_bind]

theorem refreshEntries_eq_pure (hp : ∀ id items, p (.stream id items) = false) :
    (es : List (String × HostValue)) → everyEntry p es → refreshEntries es = pure es
  | [], _ => rfl
  | (_, v) :: es, h => by
    rw [everyEntry, Bool.and_eq_true] at h
    rw [refreshEntries, HostValue.refresh_eq_pure hp v h.1, pure_bind,
      refreshEntries_eq_pure hp es h.2, pure_bind]

end

/-- The content of a plain value. -/
def HostValue.plainContent : HostValue → Content
  | .content c => c
  | .null => .null
  | .bool b => .bool b
  | .number n => .number n
  | .string s => .string s
  | .list items | .stream _ items => .array items
  | .function f => .callable f
  | .object o => .object o

theorem Action.attempt_pure {α : Type} (x : α) : attempt (pure x) = pure (.ok x) := rfl

theorem HostObject.attribute?_plain (fields : OrderedMap HostValue) (name : String) :
    (HostObject.record fields []).attribute? name = pure (fields.lookup name) := by
  unfold HostObject.attribute?
  dsimp only
  cases fields.lookup name <;> rfl

theorem HostObject.attributeOrNone_plain (fields : OrderedMap HostValue) (name : String) :
    (HostObject.record fields []).attributeOrNone name = pure (fields.lookup name) := by
  unfold HostObject.attributeOrNone
  rw [attribute?_plain, Action.attempt_pure, pure_bind]

theorem HostObject.get_plain {fields : OrderedMap HostValue}
    (hlookup : ∀ f, fields.lookup "lookup" ≠ some (.function f)) {name : String}
    (hpublic : ¬ name.startsWith "_") :
    (HostObject.record fields []).get name = (HostObject.mapping fields).get name := by
  unfold HostObject.get
  dsimp only
  rw [if_neg hpublic, attributeOrNone_plain, pure_bind]
  split
  · next f hf => exact absurd hf (hlookup f)
  · rw [attributeOrNone_plain, pure_bind]

theorem HostObject.hasMarkup_eq_pure {o : HostObject} (h : (HostValue.object o).isPlain) :
    ∃ b, o.hasMarkup = pure b := by
  cases o with
  | record fields computed =>
    obtain rfl : computed = [] := List.isEmpty_iff.1 h
    unfold hasMarkup
    rw [attributeOrNone_plain, pure_bind]
    exact ⟨_, rfl⟩
  | _ => exact ⟨false, rfl⟩

theorem Content.ofHost_eq_pure {v : HostValue} (h : v.isPlain) :
    Content.ofHost v = pure v.plainContent := by
  cases v with
  | stream => cases h
  | object o =>
    obtain ⟨b, hb⟩ := HostObject.hasMarkup_eq_pure h
    rw [Content.ofHost, hb]
    rfl
  | _ => rfl

theorem Environment.decodeExport_plain (name : String) {v : HostValue}
    (hp : ∀ id items, p (.stream id items) = false) (h : v.every p) (hplain : v.isPlain)
    (hv : v ≠ .null) : decodeExport name (.ok (some v)) = pure (some v.plainContent) := by
  have hrefresh := HostValue.refresh_eq_pure hp v h
  have hcontent := Content.ofHost_eq_pure hplain
  unfold decodeExport Action.ofExcept
  rw [pure_bind]
  dsimp only
  rw [hrefresh, pure_bind]
  cases v with
  | null => exact absurd rfl hv
  | _ =>
    dsimp only
    rw [hcontent, pure_bind]

theorem HostValue.isPlain_of_isData {v : HostValue} (h : v.isData) : v.isPlain := by
  have hv : v.isDatum := HostValue.every_self h
  cases v with
  | object o =>
    cases o with
    | mapping entries => rfl
    | _ => cases hv
  | stream => cases hv
  | function => cases hv
  | content => cases hv
  | _ => rfl

/-- The content of data, or of nothing. -/
def Content.isData : Content → Bool
  | .array items => everyItem HostValue.isDatum items
  | .object (.mapping entries) => everyEntry HostValue.isDatum entries
  | .number n => n.isShowable
  | .callable _ | .object _ => false
  | _ => true

theorem Content.isData_plainContent {v : HostValue} (h : v.isData) : v.plainContent.isData := by
  have hv : v.isDatum := HostValue.every_self h
  cases v with
  | number n => exact hv
  | list items =>
    unfold HostValue.isData HostValue.every at h
    exact (Bool.and_eq_true _ _ ▸ h).2
  | object o =>
    cases o with
    | mapping entries =>
      unfold HostValue.isData HostValue.every at h
      exact (Bool.and_eq_true _ _ ▸ h).2
    | _ => cases hv
  | stream => cases hv
  | function => cases hv
  | content => cases hv
  | _ => rfl

/-- A frame of data, with bindings of data. -/
structure Frame.IsData (f : Frame) : Prop where
  value : f.value.isData
  bindings : ∀ name c, f.bindings.lookup name = some c → c.isData

def Scope.IsData (s : Scope) : Prop := ∀ f ∈ s.frames, f.IsData

end TagTemplate
