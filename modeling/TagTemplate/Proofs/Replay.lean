import TagTemplate.Proofs.Lockstep
import TagTemplate.Scope

/-!
# Values and their streams in another host

The host numbers streams as they come to be and remembers which of them have been read. A rendering
starts from fresh copies, whose numbers no one has read yet. So it does the same in a host with a
past as in one without, but for the numbers of its streams, which are higher by as many streams as
there have been. Functions that count do remember, and are left out.
-/

namespace TagTemplate

mutual

def HostExpr.isStateless : HostExpr → Bool
  | .value v => v.isStateless true
  | .get _ (some v) => v.isStateless true
  | .concat parts => statelessParts parts
  | .upper e => e.isStateless
  | .length e => e.isStateless
  | .records e => e.isStateless
  | .list items => statelessParts items
  | .cases e branches otherwise =>
    e.isStateless && statelessBranches branches && statelessOptional otherwise
  | .attempt _ e otherwise => e.isStateless && otherwise.isStateless
  | .counter _ => false
  | _ => true

/-- The functions in the value are without a memory. It may hold streams or not. Content is not
copied with what holds it, so that there are no streams in it. -/
def HostValue.isStateless (streams : Bool) : HostValue → Bool
  | .list items => statelessItems streams items
  | .stream _ items => streams && statelessItems streams items
  | .function f => f.isStateless
  | .object o => o.isStateless streams
  | .content c => c.isStateless
  | _ => true

def HostFunction.isStateless : HostFunction → Bool
  | ⟨_, _, body⟩ => body.isStateless

def HostObject.isStateless (streams : Bool) : HostObject → Bool
  | .mapping entries => statelessEntries streams entries
  | .record fields computed => statelessEntries streams fields && statelessBranches computed
  | .unprintable => true

def Content.isStateless : Content → Bool
  | .array items => statelessItems false items
  | .callable f => f.isStateless
  | .object o => o.isStateless false
  | _ => true

def statelessParts : List HostExpr → Bool
  | [] => true
  | e :: es => e.isStateless && statelessParts es

def statelessBranches : List (String × HostExpr) → Bool
  | [] => true
  | (_, e) :: es => e.isStateless && statelessBranches es

def statelessOptional : Option HostExpr → Bool
  | some e => e.isStateless
  | none => true

def statelessItems (streams : Bool) : List HostValue → Bool
  | [] => true
  | v :: vs => v.isStateless streams && statelessItems streams vs

def statelessEntries (streams : Bool) : List (String × HostValue) → Bool
  | [] => true
  | (_, v) :: es => v.isStateless streams && statelessEntries streams es

end

mutual

/-- The value with the numbers of its streams moved up. Functions make their streams when called. -/
def HostValue.renumber (d : Nat) : HostValue → HostValue
  | .list items => .list (renumberItems d items)
  | .stream id items => .stream (d + id) (renumberItems d items)
  | .object o => .object (o.renumber d)
  | .content c => .content (c.renumber d)
  | v => v

def HostObject.renumber (d : Nat) : HostObject → HostObject
  | .mapping entries => .mapping (renumberEntries d entries)
  | .record fields computed => .record (renumberEntries d fields) computed
  | .unprintable => .unprintable

def Content.renumber (d : Nat) : Content → Content
  | .array items => .array (renumberItems d items)
  | .object o => .object (o.renumber d)
  | c => c

def renumberItems (d : Nat) : List HostValue → List HostValue
  | [] => []
  | v :: vs => v.renumber d :: renumberItems d vs

def renumberEntries (d : Nat) : List (String × HostValue) → List (String × HostValue)
  | [] => []
  | (name, v) :: es => (name, v.renumber d) :: renumberEntries d es

end

mutual

def HostValue.Known (n : Nat) : HostValue → Prop
  | .list items => KnownItems n items
  | .stream id items => id < n ∧ KnownItems n items
  | .function f => f.isStateless
  | .object o => o.Known n
  | .content c => c.Known n
  | _ => True

def HostObject.Known (n : Nat) : HostObject → Prop
  | .mapping entries => KnownEntries n entries
  | .record fields computed => KnownEntries n fields ∧ statelessBranches computed
  | .unprintable => True

def Content.Known (n : Nat) : Content → Prop
  | .array items => KnownItems n items
  | .callable f => f.isStateless
  | .object o => o.Known n
  | _ => True

def KnownItems (n : Nat) : List HostValue → Prop
  | [] => True
  | v :: vs => v.Known n ∧ KnownItems n vs

def KnownEntries (n : Nat) : List (String × HostValue) → Prop
  | [] => True
  | (_, v) :: es => v.Known n ∧ KnownEntries n es

end

section Known

variable {n m : Nat}

mutual

theorem HostValue.Known.mono (hnm : n ≤ m) : {v : HostValue} → v.Known n → v.Known m
  | .list _, h => KnownItems.mono hnm h
  | .stream .., h => ⟨Nat.lt_of_lt_of_le h.1 hnm, KnownItems.mono hnm h.2⟩
  | .function _, h => h
  | .object _, h => HostObject.Known.mono hnm h
  | .content _, h => Content.Known.mono hnm h
  | .null, h => h
  | .bool _, h => h
  | .number _, h => h
  | .string _, h => h

theorem HostObject.Known.mono (hnm : n ≤ m) : {o : HostObject} → o.Known n → o.Known m
  | .mapping _, h => KnownEntries.mono hnm h
  | .record .., h => ⟨KnownEntries.mono hnm h.1, h.2⟩
  | .unprintable, h => h

theorem Content.Known.mono (hnm : n ≤ m) : {c : Content} → c.Known n → c.Known m
  | .array _, h => KnownItems.mono hnm h
  | .callable _, h => h
  | .object _, h => HostObject.Known.mono hnm h
  | .missing, h => h
  | .null, h => h
  | .bool _, h => h
  | .number _, h => h
  | .string _, h => h

theorem KnownItems.mono (hnm : n ≤ m) : {vs : List HostValue} → KnownItems n vs → KnownItems m vs
  | [], h => h
  | _ :: _, h => ⟨HostValue.Known.mono hnm h.1, KnownItems.mono hnm h.2⟩

theorem KnownEntries.mono (hnm : n ≤ m) :
    {es : List (String × HostValue)} → KnownEntries n es → KnownEntries m es
  | [], h => h
  | _ :: _, h => ⟨HostValue.Known.mono hnm h.1, KnownEntries.mono hnm h.2⟩

end

theorem knownItems_iff {vs : List HostValue} : KnownItems n vs ↔ ∀ v ∈ vs, v.Known n := by
  induction vs with
  | nil => simp [KnownItems]
  | cons v vs ih => simp [KnownItems, ih]

theorem renumberItems_eq_map (d : Nat) (vs : List HostValue) :
    renumberItems d vs = vs.map (HostValue.renumber d) := by
  induction vs with
  | nil => rfl
  | cons v vs ih => rw [renumberItems, ih, List.map_cons]

theorem KnownEntries.lookup {es : OrderedMap HostValue} (h : KnownEntries n es) {name : String}
    {v : HostValue} (hv : es.lookup name = some v) : v.Known n := by
  induction es with
  | nil => cases hv
  | cons e es ih =>
    rw [List.lookup_cons] at hv
    split at hv
    · cases hv
      exact h.1
    · exact ih h.2 hv

theorem lookup_renumberEntries (d : Nat) (es : OrderedMap HostValue) (name : String) :
    (renumberEntries d es).lookup name = (es.lookup name).map (HostValue.renumber d) := by
  induction es with
  | nil => rfl
  | cons e es ih =>
    rw [renumberEntries, List.lookup_cons, List.lookup_cons, ih]
    split <;> rfl

theorem isStateless_of_lookup {es : OrderedMap HostExpr} (h : statelessBranches es) {name : String}
    {e : HostExpr} (he : es.lookup name = some e) : e.isStateless := by
  induction es with
  | nil => cases he
  | cons e es ih =>
    rw [statelessBranches, Bool.and_eq_true] at h
    rw [List.lookup_cons] at he
    split at he
    · cases he
      exact h.1
    · exact ih h.2 he

end Known

section Fixed

variable (n d : Nat)

mutual

theorem HostValue.fixed : (v : HostValue) → v.isStateless false → v.Known n ∧ v.renumber d = v
  | .list items, h => (fixedItems items h).imp_right (congrArg HostValue.list)
  | .stream .., h => by cases h
  | .function _, h => ⟨h, rfl⟩
  | .object o, h => (HostObject.fixed o h).imp_right (congrArg HostValue.object)
  | .content c, h => (Content.fixed c h).imp_right (congrArg HostValue.content)
  | .null, _ => ⟨trivial, rfl⟩
  | .bool _, _ => ⟨trivial, rfl⟩
  | .number _, _ => ⟨trivial, rfl⟩
  | .string _, _ => ⟨trivial, rfl⟩

theorem HostObject.fixed : (o : HostObject) → o.isStateless false → o.Known n ∧ o.renumber d = o
  | .mapping entries, h => (fixedEntries entries h).imp_right (congrArg HostObject.mapping)
  | .record fields computed, h => by
    rw [HostObject.isStateless, Bool.and_eq_true] at h
    obtain ⟨hk, he⟩ := fixedEntries fields h.1
    exact ⟨⟨hk, h.2⟩, congrArg (HostObject.record · computed) he⟩
  | .unprintable, _ => ⟨trivial, rfl⟩

theorem Content.fixed : (c : Content) → c.isStateless → c.Known n ∧ c.renumber d = c
  | .array items, h => (fixedItems items h).imp_right (congrArg Content.array)
  | .callable _, h => ⟨h, rfl⟩
  | .object o, h => (HostObject.fixed o h).imp_right (congrArg Content.object)
  | .missing, _ => ⟨trivial, rfl⟩
  | .null, _ => ⟨trivial, rfl⟩
  | .bool _, _ => ⟨trivial, rfl⟩
  | .number _, _ => ⟨trivial, rfl⟩
  | .string _, _ => ⟨trivial, rfl⟩

theorem fixedItems : (vs : List HostValue) → statelessItems false vs →
    KnownItems n vs ∧ renumberItems d vs = vs
  | [], _ => ⟨trivial, rfl⟩
  | v :: vs, h => by
    rw [statelessItems, Bool.and_eq_true] at h
    obtain ⟨hv, hev⟩ := HostValue.fixed v h.1
    obtain ⟨hvs, hevs⟩ := fixedItems vs h.2
    exact ⟨⟨hv, hvs⟩, by rw [renumberItems, hev, hevs]⟩

theorem fixedEntries : (es : List (String × HostValue)) → statelessEntries false es →
    KnownEntries n es ∧ renumberEntries d es = es
  | [], _ => ⟨trivial, rfl⟩
  | (_, v) :: es, h => by
    rw [statelessEntries, Bool.and_eq_true] at h
    obtain ⟨hv, hev⟩ := HostValue.fixed v h.1
    obtain ⟨hes, hees⟩ := fixedEntries es h.2
    exact ⟨⟨hv, hes⟩, by rw [renumberEntries, hev, hees]⟩

end

end Fixed

end TagTemplate
