import Mathlib.Data.List.Infix
import TagTemplate.Html.Escape

/-!
# Escaped text

Escaping replaces one character after the other in the whole text, but no replacement meets what an
earlier one has written: every character becomes its entity, wherever it stands. So escaped text has
no character with a meaning in markup but the ampersands of entities, and one pass over it gives the
text back.
-/

namespace TagTemplate.Html

def IsSpecial (c : Char) : Prop := c ∈ ['&', '<', '>', '"']

instance : DecidablePred IsSpecial := fun _ => inferInstanceAs (Decidable (_ ∈ _))

def IsPlain (cs : List Char) : Prop := ∀ c ∈ cs, ¬ IsSpecial c

instance : DecidablePred IsPlain := List.decidableBAll (¬ IsSpecial ·)

/-- No character begins or ends a tag or a value, and every ampersand begins an entity. -/
def IsClean (cs : List Char) : Prop :=
  ∀ c rest, (c :: rest) <:+ cs → c ∉ ['<', '>', '"'] ∧
    (c = '&' → ∃ entity ∈ ["&amp;", "&lt;", "&gt;", "&quot;"], entity.toList <+: c :: rest)

theorem IsClean.nil : IsClean [] := by
  intro c rest h
  cases List.suffix_nil.1 h

theorem IsClean.cons {c : Char} {cs : List Char} (hc : ¬ IsSpecial c) (h : IsClean cs) :
    IsClean (c :: cs) := by
  intro d rest hs
  rcases List.suffix_cons_iff.1 hs with heq | hs
  · cases heq
    refine ⟨fun hmem => hc (List.mem_cons_of_mem _ hmem), ?_⟩
    rintro rfl
    exact absurd List.mem_cons_self hc
  · exact h d rest hs

theorem IsPlain.isClean {cs : List Char} (h : IsPlain cs) : IsClean cs := by
  induction cs with
  | nil => exact .nil
  | cons c cs ih =>
    exact .cons (h c List.mem_cons_self) (ih fun d hd => h d (List.mem_cons_of_mem _ hd))

theorem suffix_append {α : Type} {c : α} {rest as bs : List α} (h : (c :: rest) <:+ as ++ bs) :
    (c :: rest) <:+ bs ∨ ∃ before, rest = before ++ bs ∧ (c :: before) <:+ as := by
  induction as with
  | nil => exact Or.inl h
  | cons a as ih =>
    rcases List.suffix_cons_iff.1 h with heq | h
    · cases heq
      exact Or.inr ⟨as, rfl, List.suffix_refl _⟩
    · refine (ih h).imp_right ?_
      rintro ⟨before, hrest, hb⟩
      exact ⟨before, hrest, hb.trans (List.suffix_cons a as)⟩

theorem IsClean.append {cs ds : List Char} (hc : IsClean cs) (hd : IsClean ds) :
    IsClean (cs ++ ds) := by
  intro c rest happend
  rcases suffix_append happend with hs | ⟨before, rfl, hs⟩
  · exact hd c rest hs
  · obtain ⟨hspecial, hentity⟩ := hc c before hs
    refine ⟨hspecial, fun heq => ?_⟩
    obtain ⟨entity, hmem, hp⟩ := hentity heq
    exact ⟨entity, hmem, hp.trans (List.prefix_append (c :: before) ds)⟩

theorem isClean_entity {e : Char × List Char} (he : e ∈ entities) : IsClean e.2 := by
  have hall : ∀ e ∈ entities, e.2.head? = some '&' ∧ IsPlain e.2.tail ∧
      String.ofList e.2 ∈ ["&amp;", "&lt;", "&gt;", "&quot;"] := by decide
  obtain ⟨hhead, htail, hmem⟩ := hall e he
  intro c rest hs
  generalize e.2 = cs at hhead htail hmem hs
  cases cs with
  | nil => cases hhead
  | cons d ds =>
    cases Option.some.inj hhead
    rcases List.suffix_cons_iff.1 hs with heq | hs
    · cases heq
      refine ⟨by decide, fun _ => ⟨_, hmem, [], ?_⟩⟩
      rw [List.append_nil, String.toList_ofList]
    · exact htail.isClean c rest hs

theorem escapeChars_append (cs ds : List Char) :
    escapeChars (cs ++ ds) = escapeChars cs ++ escapeChars ds := by
  unfold escapeChars
  generalize entities = es
  induction es generalizing cs ds with
  | nil => rfl
  | cons e es ih =>
    rw [List.foldl_cons, List.foldl_cons, List.foldl_cons, ← ih]
    unfold replaceChar
    rw [List.flatMap_append]

theorem escapeChars_singleton {c : Char} (h : ¬ IsSpecial c) : escapeChars [c] = [c] := by
  simp only [IsSpecial, List.mem_cons, List.not_mem_nil, or_false, not_or] at h
  simp [escapeChars, entities, replaceChar, h]

theorem isClean_escapeChars (cs : List Char) : IsClean (escapeChars cs) := by
  have hspecial : ∀ e ∈ entities, escapeChars [e.1] = e.2 := by decide
  have hone : ∀ c, IsClean (escapeChars [c]) := by
    intro c
    by_cases hc : IsSpecial c
    · obtain ⟨e, he, rfl⟩ : ∃ e ∈ entities, e.1 = c := List.mem_map.1 hc
      rw [hspecial e he]
      exact isClean_entity he
    · rw [escapeChars_singleton hc]
      exact .cons hc .nil
  induction cs with
  | nil => exact .nil
  | cons c cs ih =>
    rw [← List.singleton_append, escapeChars_append]
    exact (hone c).append ih

theorem IsPlain.escapeChars_eq {cs : List Char} (h : IsPlain cs) : escapeChars cs = cs := by
  induction cs with
  | nil => rfl
  | cons c cs ih =>
    rw [← List.singleton_append, escapeChars_append,
      escapeChars_singleton (h c List.mem_cons_self),
      ih fun d hd => h d (List.mem_cons_of_mem c hd)]

theorem escape_of_isPlain {text : String} (h : IsPlain text.toList) : escape text = text := by
  unfold escape
  rw [h.escapeChars_eq, String.ofList_toList]

/-- What a character is written as: its entity if it has one, or else itself. -/
def entityOf (c : Char) : List Char := (entities.lookup c).getD [c]

theorem escapeChars_entity {e : Char × List Char} (he : e ∈ entities) :
    escapeChars [e.1] = e.2 ∧ entityOf e.1 = e.2 := by
  have hall : ∀ e ∈ entities, escapeChars [e.1] = e.2 ∧ entityOf e.1 = e.2 := by decide
  exact hall e he

theorem entityOf_of_not_special {c : Char} (h : ¬ IsSpecial c) : entityOf c = [c] := by
  have hnone : entities.lookup c = none := by
    rw [List.lookup_eq_none_iff]
    intro e he
    rw [bne_iff_ne]
    rintro rfl
    exact h (List.mem_map_of_mem (f := Prod.fst) he)
  rw [entityOf, hnone, Option.getD_none]

theorem escapeChars_eq_flatMap (cs : List Char) : escapeChars cs = cs.flatMap entityOf := by
  have hone : ∀ c, escapeChars [c] = entityOf c := by
    intro c
    by_cases hc : IsSpecial c
    · obtain ⟨e, he, rfl⟩ : ∃ e ∈ entities, e.1 = c := List.mem_map.1 hc
      rw [(escapeChars_entity he).1, (escapeChars_entity he).2]
    · rw [escapeChars_singleton hc, entityOf_of_not_special hc]
  induction cs with
  | nil => rfl
  | cons c cs ih => rw [← List.singleton_append, escapeChars_append, hone, ih]; rfl

theorem escape_append (s t : String) : escape (s ++ t) = escape s ++ escape t := by
  unfold escape
  rw [String.toList_append, escapeChars_append, String.ofList_append]

/-- The characters that entities stand for, in one pass from left to right. Of the entity that was
met last, `pass` characters are still to be taken unseen. -/
def unescapeFrom (pass : Nat) : List Char → List Char
  | [] => []
  | c :: cs =>
    match pass with
    | pass + 1 => unescapeFrom pass cs
    | 0 =>
      match entities.find? fun e => e.2.isPrefixOf (c :: cs) with
      | some e => e.1 :: unescapeFrom (e.2.length - 1) cs
      | none => c :: unescapeFrom 0 cs

/-- The text that markup shows. -/
def unescape (s : String) : String := String.ofList (unescapeFrom 0 s.toList)

theorem unescapeFrom_append (cs rest : List Char) :
    unescapeFrom cs.length (cs ++ rest) = unescapeFrom 0 rest := by
  induction cs with
  | nil => rfl
  | cons c cs ih => exact ih

theorem unescapeFrom_entity {e : Char × List Char} (he : e ∈ entities) (rest : List Char) :
    unescapeFrom 0 (e.2 ++ rest) = e.1 :: unescapeFrom 0 rest := by
  simp only [entities, List.mem_cons, List.not_mem_nil, or_false] at he
  rcases he with rfl | rfl | rfl | rfl
  · exact congrArg ('&' :: ·) (unescapeFrom_append ['a', 'm', 'p', ';'] rest)
  · exact congrArg ('<' :: ·) (unescapeFrom_append ['l', 't', ';'] rest)
  · exact congrArg ('>' :: ·) (unescapeFrom_append ['g', 't', ';'] rest)
  · exact congrArg ('"' :: ·) (unescapeFrom_append ['q', 'u', 'o', 't', ';'] rest)

theorem unescapeFrom_cons {c : Char} (h : c ≠ '&') (cs : List Char) :
    unescapeFrom 0 (c :: cs) = c :: unescapeFrom 0 cs := by
  have hnone : entities.find? (fun e => e.2.isPrefixOf (c :: cs)) = none := by
    simp [entities, Ne.symm h]
  rw [unescapeFrom, hnone]

theorem unescapeFrom_escapeChars (cs : List Char) : unescapeFrom 0 (escapeChars cs) = cs := by
  rw [escapeChars_eq_flatMap]
  induction cs with
  | nil => rfl
  | cons c cs ih =>
    rw [List.flatMap_cons]
    by_cases hc : IsSpecial c
    · obtain ⟨e, he, rfl⟩ : ∃ e ∈ entities, e.1 = c := List.mem_map.1 hc
      rw [(escapeChars_entity he).2, unescapeFrom_entity he, ih]
    · have hne : c ≠ '&' := by
        rintro rfl
        exact hc List.mem_cons_self
      rw [entityOf_of_not_special hc, List.singleton_append, unescapeFrom_cons hne, ih]

theorem unescape_escape (text : String) : unescape (escape text) = text := by
  rw [unescape, escape, String.toList_ofList, unescapeFrom_escapeChars, String.ofList_toList]

/-- The replacements, one after the other, give the same as all of them at once: each character
becomes its entity, and no character is lost. -/
theorem escape_simultaneous (text : String) :
    (escape text).toList = text.toList.flatMap entityOf ∧
      (∀ more, escape (text ++ more) = escape text ++ escape more) ∧
      IsClean (escape text).toList ∧ unescape (escape text) = text ∧
      Function.Injective escape := by
  refine ⟨?_, escape_append text, ?_, unescape_escape text, ?_⟩
  · rw [escape, String.toList_ofList, escapeChars_eq_flatMap]
  · rw [escape, String.toList_ofList]
    exact isClean_escapeChars text.toList
  · intro s t h
    rw [← unescape_escape s, h, unescape_escape t]

/-- Text that already looks escaped. -/
example : unescape (escape "&amp;lt;&&<\"") = "&amp;lt;&&<\"" := by decide +kernel

end TagTemplate.Html
