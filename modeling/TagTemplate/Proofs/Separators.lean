import TagTemplate.Html.Join

/-!
# What comes between the parts of a repetition

Empty parts count for nothing. Without a `break`, and with one that names an element with content,
each of the other parts is shown for itself, so that joining is a homomorphism. Otherwise separators
stand between them, one fewer than there are parts, and only the last one can be another.
-/

namespace TagTemplate.Html

/-- What a `break` may name an element by: the text in lower case, without blanks around it. -/
def breakName (text : String) : String := String.ofList (Text.lower (Text.trim text.toList))

/-- The parts that are shown. -/
def shownParts (parts : List String) : List String := parts.filter (· ≠ "")

def alternate : List String → List String → List String
  | part :: parts, separator :: separators => part :: separator :: alternate parts separators
  | parts, _ => parts

def separators (separator final : String) : Nat → List String
  | 0 | 1 => []
  | 2 => [final]
  | count + 3 => separator :: separators separator final (count + 2)

theorem length_separators (separator final : String) (count : Nat) :
    (separators separator final count).length = count - 1 := by
  fun_induction separators separator final count with
  | case1 | case2 | case3 => rfl
  | case4 count ih => rw [List.length_cons, ih]; rfl

theorem separators_getElem? (separator final : String) {count i : Nat} (h : i + 1 < count) :
    (separators separator final count)[i]? = some (if i + 2 = count then final else separator) := by
  fun_induction separators separator final count generalizing i with
  | case1 | case2 => omega
  | case3 =>
    obtain rfl : i = 0 := by omega
    rfl
  | case4 count ih =>
    cases i with
    | zero => simp
    | succ i =>
      rw [List.getElem?_cons_succ, ih (by omega)]
      simp

theorem shownParts_append (parts more : List String) :
    shownParts (parts ++ more) = shownParts parts ++ shownParts more := List.filter_append ..

theorem shownParts_shownParts (parts : List String) :
    shownParts (shownParts parts) = shownParts parts := by
  simp [shownParts]

theorem join_shownParts (parts : List String) (options : Options) :
    join (shownParts parts) options = join parts options := by
  unfold join
  rw [← shownParts, ← shownParts, shownParts_shownParts]

theorem join_of_no_break {options : Options} (h : options.lookup "break" = none)
    (parts : List String) : join parts options = String.join (shownParts parts) := by
  unfold join
  rw [h]
  rfl

theorem not_mem_voidElements {name : String} (h : name ∈ elements) : name ∉ voidElements := by
  have hall : ∀ name ∈ elements, name ∉ voidElements := by decide
  exact hall name h

theorem join_of_element {options : Options} {text : String}
    (h : options.lookup "break" = some text) (hname : breakName text ∈ elements)
    (parts : List String) :
    join parts options =
      String.join ((shownParts parts).map fun part => element (breakName text) part none) := by
  have hbreak : Break.ofText text = .around (breakName text) := by
    unfold Break.ofText
    dsimp only
    rw [← breakName, if_neg (not_mem_voidElements hname), if_pos hname]
  unfold join
  rw [h, Option.map_some, hbreak]
  rfl

theorem separateAfter_eq (separator final text part : String) (parts : List String) :
    separateAfter separator final (text ++ part) parts =
      text ++ String.join
        (alternate (part :: parts) (separators separator final (parts.length + 1))) := by
  induction parts generalizing text part with
  | nil => simp [separateAfter, separators, alternate]
  | cons next parts ih =>
    cases parts with
    | nil => simp [separateAfter, separators, alternate, String.append_assoc]
    | cons next' parts =>
      have hfirst : separators separator final ((next :: next' :: parts).length + 1) =
          separator :: separators separator final ((next' :: parts).length + 1) := rfl
      rw [separateAfter, ih, hfirst, alternate, String.join_cons, String.join_cons]
      simp only [String.append_assoc]

theorem separate_eq (separator final : String) (parts : List String) :
    separate separator final parts =
      String.join (alternate parts (separators separator final parts.length)) := by
  cases parts with
  | nil => rfl
  | cons part parts =>
    have hparts := separateAfter_eq separator final "" part parts
    rwa [String.empty_append, String.empty_append] at hparts

theorem join_of_separator {options : Options} {text : String}
    (h : options.lookup "break" = some text) (hname : breakName text ∉ elements)
    (parts : List String) :
    let separator :=
      if breakName text ∈ voidElements then "<" ++ breakName text ++ " />" else text
    join parts options = String.join (alternate (shownParts parts)
      (separators separator ((options.lookup "last").getD separator) (shownParts parts).length)) := by
  intro separator
  have hbreak : Break.ofText text = .between separator := by
    unfold Break.ofText
    dsimp only
    rw [← breakName, if_neg hname]
    unfold separator
    split <;> rfl
  unfold join
  rw [h, Option.map_some, hbreak, ← shownParts]
  exact separate_eq _ _ _

/-- Joining leaves empty parts out. Without a `break` it is a homomorphism that shows the parts as
they are, and where the `break` names an element with content one that shows each part inside that
element, whatever `last` is. Otherwise separators stand between the parts, one fewer than there are
parts: `last`, if given, before the last part, and else the void element that the `break` names, or
its text if it names none. -/
theorem join_parts (parts : List String) (options : Options) :
    join parts options = join (shownParts parts) options ∧
      (options.lookup "break" = none →
        join parts options = String.join (shownParts parts) ∧
        ∀ more, join (parts ++ more) options = join parts options ++ join more options) ∧
      ∀ text, options.lookup "break" = some text →
        (breakName text ∈ elements ∧ breakName text ∉ voidElements →
          join parts options = String.join
            ((shownParts parts).map fun part => element (breakName text) part none) ∧
          ∀ more, join (parts ++ more) options = join parts options ++ join more options) ∧
        (¬ (breakName text ∈ elements ∧ breakName text ∉ voidElements) →
          let separator :=
            if breakName text ∈ voidElements then "<" ++ breakName text ++ " />" else text
          let final := (options.lookup "last").getD separator
          ∃ between : List String, between.length = (shownParts parts).length - 1 ∧
            (∀ i, i + 1 < (shownParts parts).length →
              between[i]? = some (if i + 2 = (shownParts parts).length then final else separator)) ∧
            join parts options = String.join (alternate (shownParts parts) between)) := by
  refine ⟨(join_shownParts parts options).symm, fun hbreak => ⟨?_, fun more => ?_⟩,
    fun text hbreak => ⟨fun ⟨hname, _⟩ => ⟨?_, fun more => ?_⟩, fun hname => ?_⟩⟩
  · exact join_of_no_break hbreak parts
  · simp only [join_of_no_break hbreak, shownParts_append, String.join_append]
  · exact join_of_element hbreak hname parts
  · simp only [join_of_element hbreak hname, shownParts_append, List.map_append, String.join_append]
  · have hother : breakName text ∉ elements := fun h => hname ⟨h, not_mem_voidElements h⟩
    intro separator final
    exact ⟨_, length_separators separator final _, fun i => separators_getElem? separator final,
      join_of_separator hbreak hother parts⟩

/-- Empty parts at both ends and in the middle, with each kind of `break`. -/
theorem join_parts_break :
    let parts := ["", "a", "", "b", "c", ""]
    join parts [("last", "&")] = "abc" ∧
      (breakName "\tLi " = "li" ∧
        join parts [("break", "\tLi "), ("last", "&")] = "<li>a</li><li>b</li><li>c</li>") ∧
      breakName " BR" = "br" ∧ ∃ between : List String, between.length = 2 ∧
        between[0]? = some "<br />" ∧ between[1]? = some "&" ∧
        join parts [("break", " BR"), ("last", "&")] =
          String.join (alternate ["a", "b", "c"] between) := by
  intro parts
  have hparts : shownParts parts = ["a", "b", "c"] := by decide
  have hitem : breakName "\tLi " = "li" := by decide +kernel
  have hline : breakName " BR" = "br" := by decide +kernel
  refine ⟨?_, ⟨hitem, ?_⟩, hline, ?_⟩
  · rw [((join_parts parts [("last", "&")]).2.1 rfl).1, hparts]
    rfl
  · have hitems := (join_parts parts [("break", "\tLi "), ("last", "&")]).2.2 "\tLi " rfl
    rw [(hitems.1 (by rw [hitem]; decide)).1, hparts, hitem]
    rfl
  · have hlines := (join_parts parts [("break", " BR"), ("last", "&")]).2.2 " BR" rfl
    obtain ⟨between, hlength, hbetween, hjoin⟩ := hlines.2 (by rw [hline]; decide)
    rw [hparts] at hlength hbetween hjoin
    have hfirst := hbetween 0 (by decide)
    rw [hline] at hfirst
    exact ⟨between, hlength, hfirst, hbetween 1 (by decide), hjoin⟩

end TagTemplate.Html
