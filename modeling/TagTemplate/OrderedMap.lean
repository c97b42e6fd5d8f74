/-!
# Maps in insertion order

A map from names to values is a list of pairs, each name once, in the order in which the names were
first inserted. Looking a name up is `List.lookup`.
-/

namespace TagTemplate

abbrev OrderedMap (α : Type) := List (String × α)

namespace OrderedMap

variable {α : Type}

def has (m : OrderedMap α) (name : String) : Bool := (m.lookup name).isSome

/-- Binds a name: a new one goes to the end, a known one keeps its place. -/
def insert : OrderedMap α → String → α → OrderedMap α
  | [], name, value => [(name, value)]
  | (k, v) :: rest, name, value =>
    if name == k then (k, value) :: rest else (k, v) :: insert rest name value

/-- Binds pairs one after the other: of several for one name the last value counts, at the place of
the first. -/
def ofPairs (pairs : List (String × α)) : OrderedMap α :=
  pairs.foldl (fun m p => insert m p.1 p.2) []

theorem lookup_map {β : Type} (f : α → β) (m : OrderedMap α) (name : String) :
    (m.map fun p => (p.1, f p.2)).lookup name = (m.lookup name).map f := by
  induction m with
  | nil => rfl
  | cons p m ih =>
    rw [List.map_cons, List.lookup_cons, List.lookup_cons, ih]
    split <;> rfl

theorem lookup_filter (keep : String → Bool) (m : OrderedMap α) (name : String) :
    (m.filter fun p => keep p.1).lookup name = if keep name then m.lookup name else none := by
  induction m with
  | nil => simp
  | cons p m ih =>
    obtain ⟨k, v⟩ := p
    by_cases hname : name = k
    · subst hname
      cases hk : keep name with
      | true => simp [hk]
      | false => simpa [hk] using ih
    · cases hk : keep k with
      | true => simp [hk, List.lookup_cons, beq_eq_false_iff_ne.2 hname, ih]
      | false => simp [hk, List.lookup_cons, beq_eq_false_iff_ne.2 hname, ih]

theorem mem_of_lookup {m : OrderedMap α} {name : String} {value : α}
    (h : m.lookup name = some value) : (name, value) ∈ m := by
  obtain ⟨before, after, rfl, -⟩ := List.lookup_eq_some_iff.1 h
  exact List.mem_append_right before List.mem_cons_self

theorem lookup_insert_self (m : OrderedMap α) (name : String) (value : α) :
    (insert m name value).lookup name = some value := by
  induction m with
  | nil => simp [insert]
  | cons p m ih =>
    obtain ⟨k, v⟩ := p
    by_cases h : name = k
    · simp [insert, h]
    · simp [insert, List.lookup_cons, beq_eq_false_iff_ne.2 h, ih]

theorem lookup_insert_of_ne (m : OrderedMap α) {name other : String} (value : α)
    (h : other ≠ name) : (insert m name value).lookup other = m.lookup other := by
  induction m with
  | nil => simp [insert, h]
  | cons p m ih =>
    obtain ⟨k, v⟩ := p
    by_cases hk : name = k
    · subst hk
      simp [insert, List.lookup_cons, beq_eq_false_iff_ne.2 h]
    · simp [insert, beq_eq_false_iff_ne.2 hk, List.lookup_cons, ih]

theorem eq_or_lookup_of_lookup_insert {m : OrderedMap α} {name other : String} {value v : α}
    (h : (insert m name value).lookup other = some v) : v = value ∨ m.lookup other = some v := by
  by_cases ho : other = name
  · subst ho
    rw [lookup_insert_self] at h
    exact Or.inl (Option.some.inj h).symm
  · rw [lookup_insert_of_ne m value ho] at h
    exact Or.inr h

section Rel

variable {β : Type} {R : α → β → Prop} {m : OrderedMap α} {m' : OrderedMap β}
  {name other : String} {value : α} {value' : β}

theorem rel_lookup_cons (hv : R value value')
    (h : Option.Rel R (m.lookup other) (m'.lookup other)) :
    Option.Rel R (List.lookup other ((name, value) :: m))
      (List.lookup other ((name, value') :: m')) := by
  by_cases ho : other = name
  · simpa [ho] using Option.Rel.some hv
  · simpa [List.lookup_cons, beq_eq_false_iff_ne.2 ho] using h

theorem rel_lookup_insert (hv : R value value')
    (h : Option.Rel R (m.lookup other) (m'.lookup other)) :
    Option.Rel R ((insert m name value).lookup other) ((insert m' name value').lookup other) := by
  by_cases ho : other = name
  · subst ho
    rw [lookup_insert_self, lookup_insert_self]
    exact .some hv
  · rw [lookup_insert_of_ne m value ho, lookup_insert_of_ne m' value' ho]
    exact h

end Rel

end OrderedMap

end TagTemplate
