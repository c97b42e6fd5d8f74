import TagTemplate.Proofs.Appending
import TagTemplate.Proofs.ErrorPositions

/-!
# Dotted names are shorthand for nesting

A tag with a dotted name compiles like the tags of its path written around each other, of which the
innermost takes the attributes and the body. That the body compiles alone does not say that it does
inside the tag: a comment that it leaves open swallows closing tags. Then too few of them are left in
either of the two texts.
-/

namespace TagTemplate.Markup

open TagTemplate.Text (isBlank isWord)

/-- A part of a tag name: an ASCII letter or an underscore, then word characters and hyphens. -/
def IsSegment (s : String) : Prop :=
  ∃ c cs, s.toList = c :: cs ∧ isNameStart c = true ∧ ∀ x ∈ cs, isWord x = true ∨ x = '-'

/-- Every part of the path is a segment, the extension too. -/
def TagPath.Segmented (path : TagPath) : Prop :=
  (∀ e ∈ path.extension, IsSegment e) ∧ ∀ s ∈ path.segments, IsSegment s

theorem not_isNameStart_separator : isNameStart '.' = false ∧ isNameStart ':' = false := by decide

theorem not_isWord_separator : isWord '.' = false ∧ isWord ':' = false := by decide

theorem IsSegment.isNameChar {s : String} (h : IsSegment s) : ∀ x ∈ s.toList, isNameChar x = true := by
  obtain ⟨c, cs, hs, hc, hcs⟩ := h
  rw [hs]
  refine List.forall_mem_cons.2 ⟨isNameChar_of_isNameStart hc, fun x hx => ?_⟩
  rcases hcs x hx with hword | rfl
  · simp [Markup.isNameChar, hword]
  · decide

theorem IsSegment.proper {s : String} (h : IsSegment s) :
    s ≠ "" ∧ '.' ∉ s.toList ∧ ':' ∉ s.toList := by
  obtain ⟨c, cs, hs, hc, hcs⟩ := h
  refine ⟨?_, ?_, ?_⟩
  · rintro rfl
    cases hs
  · rw [hs, List.mem_cons, not_or]
    constructor
    · rintro rfl
      rw [not_isNameStart_separator.1] at hc
      cases hc
    · intro hdot
      rcases hcs '.' hdot with hword | hhyphen
      · rw [not_isWord_separator.1] at hword
        cases hword
      · cases hhyphen
  · rw [hs, List.mem_cons, not_or]
    constructor
    · rintro rfl
      rw [not_isNameStart_separator.2] at hc
      cases hc
    · intro hcolon
      rcases hcs ':' hcolon with hword | hhyphen
      · rw [not_isWord_separator.2] at hword
        cases hword
      · cases hhyphen

theorem TagPath.Segmented.proper {path : TagPath} (h : path.Segmented) : path.Proper where
  extension e he := ⟨(h.1 e he).proper.1, (h.1 e he).proper.2.2⟩
  segments s hs := (h.2 s hs).proper

theorem TagPath.written_begins (path : TagPath) :
    ∃ s rest, path.written = s.toList ++ rest ∧
      (s ∈ path.extension.toList ∨ s ∈ path.segments) := by
  cases hextension : path.extension with
  | some e =>
    refine ⟨e, ':' :: List.intercalate ['.'] (path.segments.map String.toList), ?_, by simp⟩
    rw [written, hextension, Option.elim, List.append_assoc, List.singleton_append]
  | none =>
    rw [written, hextension, Option.elim, List.nil_append]
    cases houter : path.outer with
    | nil => exact ⟨path.name, [], by simp [segments, houter], Or.inr (by simp [segments])⟩
    | cons s outer =>
      obtain ⟨part, parts, hparts⟩ : ∃ part parts,
          outer.map String.toList ++ [path.name.toList] = part :: parts := by
        cases outer <;> exact ⟨_, _, rfl⟩
      refine ⟨s, '.' :: List.intercalate ['.'] (part :: parts), ?_, Or.inr (by simp [segments, houter])⟩
      rw [toList_segments, houter, List.map_cons, List.cons_append, hparts,
        List.intercalate_cons_cons, List.append_assoc, List.singleton_append]

theorem TagPath.Segmented.isNameChar {path : TagPath} (h : path.Segmented) :
    ∀ x ∈ path.written, isNameChar x = true := by
  intro x hx
  rw [written, List.mem_append] at hx
  rcases hx with hx | hx
  · cases hextension : path.extension with
    | none => simp [hextension] at hx
    | some e =>
      rw [hextension, Option.elim, List.mem_append, List.mem_singleton] at hx
      rcases hx with hx | rfl
      · exact (h.1 e hextension).isNameChar x hx
      · decide
  · rcases Text.mem_of_mem_intercalate hx with rfl | ⟨part, hpart, hx⟩
    · decide
    · obtain ⟨s, hs, rfl⟩ := List.mem_map.1 hpart
      exact (h.2 s hs).isNameChar x hx

theorem TagPath.Segmented.isName {path : TagPath} (h : path.Segmented) :
    IsName (String.ofList path.written) := by
  have hchars := h.isNameChar
  obtain ⟨s, rest, hwritten, hs⟩ := path.written_begins
  have hsegment : IsSegment s := by
    rcases hs with hs | hs
    · exact h.1 s (by simpa using hs)
    · exact h.2 s hs
  obtain ⟨c, cs, hc, hstart, -⟩ := hsegment
  rw [hwritten, hc] at hchars ⊢
  refine isName_iff.2 ⟨c, cs ++ rest, String.toList_ofList, hstart, fun x hx => ?_⟩
  exact hchars x (List.mem_cons_of_mem c hx)

theorem TagPath.Segmented.ofName? {path : TagPath} (h : path.Segmented) :
    TagPath.ofName? (String.ofList path.written) = some path :=
  TagPath.ofName?_eq_some_iff.2 ⟨h.proper, String.toList_ofList⟩

/-- An attribute with its value between quotation marks. There may be blanks around the equals sign,
and there has to be one in front. -/
structure QuotedAttribute where
  front : List Char
  name : String
  before : List Char
  after : List Char
  quote : Char
  value : List Char
  front_ne : front ≠ []
  front_blank : ∀ c ∈ front, isBlank c = true
  isName : IsName name
  before_blank : ∀ c ∈ before, isBlank c = true
  after_blank : ∀ c ∈ after, isBlank c = true
  isQuote : isQuote quote = true
  quote_not_mem : quote ∉ value

def QuotedAttribute.write (a : QuotedAttribute) : List Char :=
  a.front ++ (a.name.toList ++ (a.before ++ '=' :: (a.after ++ a.quote :: (a.value ++ [a.quote]))))

/-- What is written of a tag beside its name. A tag without a body is self-closing. -/
structure WrittenTag where
  attributes : List QuotedAttribute
  tail : List Char
  body : Option (List Char)
  tail_blank : ∀ c ∈ tail, isBlank c = true

def WrittenTag.around (cs : List Char) : WrittenTag := ⟨[], [], some cs, nofun⟩

def WrittenTag.writeOpening (t : WrittenTag) (name : List Char) : List Char :=
  openMark ++ (name ++ (t.attributes.flatMap (·.write) ++ (t.tail ++ tagEnd t.body.isNone)))

def writeClosing (name : List Char) : List Char := closeMark ++ (name ++ ['>'])

def WrittenTag.write (t : WrittenTag) (name : List Char) : List Char :=
  t.writeOpening name ++ t.body.elim [] fun body => body ++ writeClosing name

/-- The tag under its own name, inside of tags that have the outer names. The extension stands before
the outermost name. -/
def WrittenTag.nested (t : WrittenTag) (name : String) : Option String → List String → List Char
  | extension, [] => t.write (TagPath.written ⟨extension, [], name⟩)
  | extension, outer :: inner =>
    (around (t.nested name none inner)).write (TagPath.written ⟨extension, [], outer⟩)

theorem skipBlank_blanks {bs : List Char} (h : ∀ c ∈ bs, isBlank c = true) (cs : List Char) :
    skipBlank (bs ++ cs) = skipBlank cs :=
  List.dropWhile_append_of_pos h

theorem isNameChar_of_isBlank {c : Char} (h : isBlank c = true) : isNameChar c = false := by
  have hall : ∀ r ∈ Text.blankRanges, ∀ n ∈ List.range' r.1 (r.2 + 1 - r.1),
      isNameChar (Char.ofNat n) = false := by decide +kernel
  obtain ⟨r, hr, hle⟩ := (Text.Ranges.has_iff _ _).1 h
  have hc := hall r hr c.toNat (List.mem_range'_1.2 ⟨hle.1, by omega⟩)
  rwa [Char.ofNat_toNat] at hc

theorem head_blanks {bs rest : List Char} (hbs : ∀ c ∈ bs, isBlank c = true)
    (hrest : ∀ c ∈ rest.head?, isNameChar c = false) :
    ∀ c ∈ (bs ++ rest).head?, isNameChar c = false := by
  cases bs with
  | nil => exact hrest
  | cons b bs =>
    rintro c ⟨⟩
    exact isNameChar_of_isBlank (hbs b List.mem_cons_self)

theorem isBlank_of_isQuote {c : Char} (h : isQuote c = true) : isBlank c = false := by
  rw [isQuote, Bool.or_eq_true, beq_iff_eq, beq_iff_eq] at h
  rcases h with rfl | rfl <;> decide

theorem QuotedAttribute.head_write (a : QuotedAttribute) (rest : List Char) :
    ∃ c cs, a.front = c :: cs ∧ isBlank c = true ∧ a.write ++ rest = c :: (cs ++ (a.name.toList ++
      (a.before ++ '=' :: (a.after ++ a.quote :: (a.value ++ a.quote :: rest))))) := by
  obtain ⟨c, cs, hfront⟩ := List.exists_cons_of_ne_nil a.front_ne
  have hc := a.front_blank c (by simp [hfront])
  exact ⟨c, cs, hfront, hc, by simp [write, hfront]⟩

theorem readAttributeName_quoted (a : QuotedAttribute) (rest : List Char) :
    readAttributeName (a.write ++ rest) =
      some (a.name, a.quote :: (a.value ++ a.quote :: rest)) := by
  obtain ⟨c, cs, hfront, hc, hwrite⟩ := a.head_write rest
  have hcs : ∀ c ∈ cs, isBlank c = true := fun x hx => a.front_blank x (by simp [hfront, hx])
  have hequals : ∀ c ∈ ('=' :: (a.after ++ a.quote :: (a.value ++ a.quote :: rest))).head?,
      isNameChar c = false := by
    rintro c ⟨⟩
    decide
  rw [hwrite, readAttributeName, if_pos hc, skipBlank_blanks hcs, a.isName.skipBlank,
    a.isName.read (head_blanks a.before_blank hequals)]
  dsimp only
  rw [skipBlank_blanks a.before_blank, skipBlank_cons (by decide)]
  refine congrArg (fun r => some (a.name, r)) ?_
  rw [skipBlank_blanks a.after_blank, skipBlank_cons (isBlank_of_isQuote a.isQuote)]

theorem readAttribute_quoted (a : QuotedAttribute) (offset : Nat) (rest : List Char) :
    ∃ place, readAttribute none offset (a.write ++ rest) =
      .ok (⟨a.name, a.value, place, a.quote⟩, rest) := by
  rw [readAttribute, readAttributeName_quoted]
  dsimp only
  rw [readValue_quoted a.isQuote a.quote_not_mem]
  exact ⟨_, rfl⟩

def QuotedAttribute.ReadAs (q : QuotedAttribute) (a : RawAttribute) : Prop :=
  a.name = q.name ∧ a.value = q.value

theorem readAttributes_written (as : List QuotedAttribute) {tail : List Char}
    (htail : ∀ c ∈ tail, isBlank c = true) (closed : Bool) (offset : Nat) (rest : List Char) :
    ∃ raws, List.Forall₂ QuotedAttribute.ReadAs as raws ∧
      readAttributes none offset (as.flatMap (·.write) ++ (tail ++ (tagEnd closed ++ rest))) =
        .ok (raws, closed, rest) := by
  induction as generalizing offset with
  | nil =>
    refine ⟨[], .nil, readAttributes_of_end ?_⟩
    have hend := readTagEnd_tagEnd closed rest
    rw [readTagEnd] at hend ⊢
    rwa [List.flatMap_nil, List.nil_append, skipBlank_blanks htail]
  | cons a as ih =>
    obtain ⟨place, hread⟩ := readAttribute_quoted a offset
      (as.flatMap (·.write) ++ (tail ++ (tagEnd closed ++ rest)))
    obtain ⟨raws, hraws, hrest⟩ := ih (offset + (_ - _))
    refine ⟨⟨a.name, a.value, place, a.quote⟩ :: raws, .cons ⟨rfl, rfl⟩ hraws, ?_⟩
    rw [List.flatMap_cons, List.append_assoc,
      readAttributes_of_attribute (readTagEnd_of_readAttribute hread), hread, Except.bind, hrest]
    rfl

structure WrittenTag.Opens (t : WrittenTag) (name : List Char) (tag : Opening) : Prop where
  name : tag.name = String.ofList name
  selfClosing : tag.selfClosing = t.body.isNone
  attributes : List.Forall₂ QuotedAttribute.ReadAs t.attributes tag.attributes

section Reading

variable {name : List Char} (hname : IsName (String.ofList name)) (offset : Nat) (rest : List Char)

include hname

theorem lex_opening (t : WrittenTag) : ∃ tag stop, t.Opens name tag ∧
    lex none offset (t.writeOpening name ++ rest) = (lex none stop rest).map (.opening tag :: ·) := by
  have hend : ∀ c ∈ (t.attributes.flatMap (·.write) ++
      (t.tail ++ (tagEnd t.body.isNone ++ rest))).head?, isNameChar c = false := by
    cases t.attributes with
    | nil =>
      rw [List.flatMap_nil, List.nil_append]
      refine head_blanks t.tail_blank ?_
      cases t.body.isNone <;> (rintro c ⟨⟩; decide)
    | cons a as =>
      rw [List.flatMap_cons, List.append_assoc]
      obtain ⟨c, cs, -, hc, hwrite⟩ := a.head_write
        (as.flatMap (·.write) ++ (t.tail ++ (tagEnd t.body.isNone ++ rest)))
      rw [hwrite]
      rintro x ⟨⟩
      exact isNameChar_of_isBlank hc
  have hread := hname.read hend
  rw [String.toList_ofList] at hread
  obtain ⟨raws, hraws, hattributes⟩ := readAttributes_written t.attributes t.tail_blank
    t.body.isNone (offset + (_ - _)) rest
  have hwrite : t.writeOpening name ++ rest = openMark ++ (name ++ (t.attributes.flatMap (·.write) ++
      (t.tail ++ (tagEnd t.body.isNone ++ rest)))) := by
    simp [WrittenTag.writeOpening]
  have htag : readTag none offset (t.writeOpening name ++ rest) = .ok (.opening ⟨String.ofList name,
      raws, t.body.isNone, consumed (t.writeOpening name ++ rest) rest, offset⟩, rest) := by
    rw [hwrite, readTag, if_neg (by simp [openMark, closeMark]), List.drop_left, readOpening, hread]
    dsimp only
    rw [hattributes]
  have hat : atTag (t.writeOpening name ++ rest) = true := by
    rw [hwrite]
    rfl
  obtain ⟨stop, hlex⟩ := lex_of_readTag hat htag
  exact ⟨_, stop, ⟨rfl, rfl, hraws⟩, hlex⟩

theorem lex_closing : ∃ source stop,
    lex none offset (writeClosing name ++ rest) =
      (lex none stop rest).map (.closing (String.ofList name) source offset :: ·) := by
  obtain ⟨source, hread⟩ := readTag_closing hname offset rest
  rw [String.toList_ofList] at hread
  obtain ⟨stop, hlex⟩ := lex_of_readTag rfl hread
  exact ⟨source, stop, hlex⟩

end Reading

def QuotedAttribute.raw (q : QuotedAttribute) : RawAttribute := ⟨q.name, q.value, 0, q.quote⟩

def WrittenTag.node? (t : WrittenTag) (path : TagPath) (children : List Node) : Option Node :=
  (compileAttributes RawAttribute.compiled (t.attributes.map (·.raw))).toOption.map fun pairs =>
    .tag (path.build (OrderedMap.ofPairs pairs) children t.body.isNone)

def ReadsAs (cs : List Char) (result : Option (List Node)) : Prop :=
  ∀ offset rest, EndsText rest → ∃ ts stop,
    lex none offset (cs ++ rest) = (lex none stop rest).map (ts ++ ·) ∧
    ∀ frames before rest', (assemble RawAttribute.compiled frames before (ts ++ rest')).toOption =
      result.bind fun nodes =>
        (assemble RawAttribute.compiled frames (nodes.reverse ++ before) rest').toOption

theorem toOption_bind {ε α β : Type} (x : Except ε α) (f : α → Except ε β) :
    (x.bind f).toOption = x.toOption.bind fun a => (f a).toOption := by
  cases x <;> rfl

theorem toOption_eq_some_iff {ε α : Type} {x : Except ε α} {a : α} :
    x.toOption = some a ↔ x = .ok a := by
  cases x <;> simp [Except.toOption]

theorem toOption_compiled {a b : RawAttribute} (h : a.value = b.value) :
    a.compiled.toOption = b.compiled.toOption := by
  have hmeans : ∀ v, a.Means v ↔ b.Means v := by
    intro v
    unfold RawAttribute.Means
    rw [h]
  ext v
  rw [toOption_eq_some_iff, toOption_eq_some_iff, means_iff, means_iff, hmeans]

theorem toOption_compileAttributes {as : List QuotedAttribute} {raws : List RawAttribute}
    (h : List.Forall₂ QuotedAttribute.ReadAs as raws) :
    (compileAttributes RawAttribute.compiled raws).toOption =
      (compileAttributes RawAttribute.compiled (as.map (·.raw))).toOption := by
  induction h with
  | nil => rfl
  | @cons q a as raws hread _ ih =>
    have hvalue : a.compiled.toOption = q.raw.compiled.toOption := toOption_compiled hread.2
    rw [List.map_cons, compileAttributes, compileAttributes, show q.raw.name = a.name from hread.1.symm]
    cases hq : q.raw.compiled with
    | error failure =>
      rw [hq] at hvalue
      cases ha : a.compiled with
      | error failure' => rfl
      | ok v => simp [ha, Except.toOption] at hvalue
    | ok v =>
      rw [hq] at hvalue
      rw [toOption_eq_some_iff.1 hvalue]
      dsimp only
      cases hqs : compileAttributes RawAttribute.compiled (as.map (·.raw)) with
      | error failure =>
        cases has : compileAttributes RawAttribute.compiled raws with
        | error failure' => rfl
        | ok vs => simp [hqs, has, Except.toOption] at ih
      | ok vs =>
        rw [hqs] at ih
        rw [toOption_eq_some_iff.1 ih]

theorem WrittenTag.Opens.build {t : WrittenTag} {path : TagPath} {tag : Opening}
    (h : t.Opens path.written tag) (hpath : path.Segmented) (children : List Node) :
    (tag.build RawAttribute.compiled children).toOption = t.node? path children := by
  have hattributes := toOption_compileAttributes h.attributes
  unfold Opening.build WrittenTag.node?
  rw [h.name, hpath.ofName?, ← hattributes, h.selfClosing]
  dsimp only
  cases compileAttributes RawAttribute.compiled tag.attributes <;> rfl

/-- The body is read as these nodes. Without a body there are none. -/
def WrittenTag.Holds (t : WrittenTag) (result : Option (List Node)) : Prop :=
  match t.body with
  | none => result = some []
  | some body => ReadsAs body result

theorem readsAs_tag {t : WrittenTag} {path : TagPath} {result : Option (List Node)}
    (hpath : path.Segmented) (h : t.Holds result) :
    ReadsAs (t.write path.written) (result.bind fun children =>
      (t.node? path children).map fun node => [node]) := by
  intro offset rest hrest
  cases hbody : t.body with
  | none =>
    obtain ⟨tag, stop, hopens, hlex⟩ := lex_opening hpath.isName offset rest t
    obtain rfl : result = some [] := by simpa [WrittenTag.Holds, hbody] using h
    have hclosed : tag.selfClosing = true := by rw [hopens.selfClosing, hbody]; rfl
    refine ⟨[.opening tag], stop, ?_, fun frames before rest' => ?_⟩
    · simpa [WrittenTag.write, hbody] using hlex
    · rw [List.singleton_append, assemble_selfClosing hclosed, toOption_bind, hopens.build hpath,
        Option.bind_some]
      cases t.node? path [] <;> rfl
  | some body =>
    have hbodyReads : ReadsAs body result := by simpa [WrittenTag.Holds, hbody] using h
    obtain ⟨tag, inside, hopens, hopening⟩ :=
      lex_opening hpath.isName offset (body ++ (writeClosing path.written ++ rest)) t
    obtain ⟨ts, stop, hinner, hassemble⟩ :=
      hbodyReads inside (writeClosing path.written ++ rest) (Or.inr rfl)
    obtain ⟨source, after, hclosing⟩ := lex_closing hpath.isName stop rest
    have hopened : tag.selfClosing = false := by rw [hopens.selfClosing, hbody]; rfl
    refine ⟨.opening tag :: (ts ++ [.closing (String.ofList path.written) source stop]), after, ?_,
      fun frames before rest' => ?_⟩
    · rw [WrittenTag.write, hbody, Option.elim, List.append_assoc, List.append_assoc, hopening,
        hinner, hclosing, map_map, map_map]
      simp
    · rw [List.cons_append, assemble_opening hopened, List.append_assoc, hassemble]
      cases result with
      | none => rfl
      | some nodes =>
        rw [Option.bind_some, Option.bind_some, List.singleton_append, assemble_closing hopens.name,
          toOption_bind, hopens.build hpath, List.append_nil, List.reverse_reverse]
        cases t.node? path nodes <;> rfl

theorem node?_around (t : WrittenTag) (cs : List Char) (name : String) (extension : Option String)
    (outer : String) (inner : List String) (children : List Node) :
    ((t.node? ⟨none, inner, name⟩ children).bind fun node =>
      (WrittenTag.around cs).node? ⟨extension, [], outer⟩ [node]) =
        t.node? ⟨extension, outer :: inner, name⟩ children := by
  unfold WrittenTag.node?
  cases (compileAttributes RawAttribute.compiled (t.attributes.map (·.raw))).toOption with
  | none => rfl
  | some pairs =>
    simp only [Option.map_some, Option.bind_some, TagPath.build, nest_eq_spread]
    rfl

theorem TagPath.Segmented.head {extension : Option String} {outer : String} {inner : List String}
    {name : String} (h : Segmented ⟨extension, outer :: inner, name⟩) :
    Segmented ⟨extension, [], outer⟩ :=
  ⟨h.1, by simpa [segments] using h.2 outer (by simp [segments])⟩

theorem TagPath.Segmented.tail {extension : Option String} {outer : String} {inner : List String}
    {name : String} (h : Segmented ⟨extension, outer :: inner, name⟩) :
    Segmented ⟨none, inner, name⟩ :=
  ⟨nofun, fun s hs => h.2 s (List.mem_cons_of_mem outer hs)⟩

theorem readsAs_nested {t : WrittenTag} {result : Option (List Node)} (h : t.Holds result)
    (name : String) (extension : Option String) (outer : List String)
    (hpath : TagPath.Segmented ⟨extension, outer, name⟩) :
    ReadsAs (t.nested name extension outer) (result.bind fun children =>
      (t.node? ⟨extension, outer, name⟩ children).map fun node => [node]) := by
  induction outer generalizing extension with
  | nil => exact readsAs_tag hpath h
  | cons outer inner ih =>
    have hreads := readsAs_tag (t := .around (t.nested name none inner)) hpath.head (ih none hpath.tail)
    rw [WrittenTag.nested]
    have hresult : ((result.bind fun children =>
        (t.node? ⟨none, inner, name⟩ children).map fun node => [node]).bind fun children =>
          ((WrittenTag.around (t.nested name none inner)).node? ⟨extension, [], outer⟩ children).map
            fun node => [node]) = result.bind fun children =>
              (t.node? ⟨extension, outer :: inner, name⟩ children).map fun node => [node] := by
      cases result with
      | none => rfl
      | some children =>
        rw [Option.bind_some, Option.bind_some,
          ← node?_around t (t.nested name none inner) name extension outer inner children]
        cases t.node? ⟨none, inner, name⟩ children <;> rfl
    rwa [hresult] at hreads

theorem ReadsAs.parse {cs : List Char} {result : Option (List Node)} (h : ReadsAs cs result) :
    (parseWindow none 0 cs).toOption = result := by
  obtain ⟨ts, stop, hlex, hassemble⟩ := h 0 [] (Or.inl rfl)
  rw [List.append_nil, lex_nil, Except.map, List.append_nil] at hlex
  have hall := hassemble [] [] []
  rw [List.append_nil] at hall
  rw [parseWindow_eq, hlex, Except.bind, hall]
  cases result <;> simp [assemble, Except.toOption]

def Token.rise : Token → Int
  | .opening tag => if tag.selfClosing then 0 else 1
  | .closing .. => -1
  | .text .. => 0

def rise : List Token → Int
  | [] => 0
  | t :: ts => t.rise + rise ts

@[simp] theorem rise_nil : rise [] = 0 := rfl

@[simp] theorem rise_cons (t : Token) (ts : List Token) : rise (t :: ts) = t.rise + rise ts := rfl

@[simp] theorem rise_append (ts us : List Token) : rise (ts ++ us) = rise ts + rise us := by
  induction ts with
  | nil => simp
  | cons t ts ih => simp [ih, Int.add_assoc]

@[simp] theorem Token.rise_shift (d : Nat) (t : Token) : (t.shift d).rise = t.rise := by
  cases t <;> rfl

@[simp] theorem rise_shift (d : Nat) (ts : List Token) : rise (ts.map (·.shift d)) = rise ts := by
  induction ts with
  | nil => rfl
  | cons t ts ih => simp [ih]

theorem Balanced.rise_eq {ts : List Token} (h : Balanced ts) : rise ts = 0 := by
  induction h with
  | nil => rfl
  | text value offset _ ih => simpa [Token.rise] using ih
  | selfClosing closed _ ih => simpa [Token.rise, closed] using ih
  | pair source offset opened _ _ ihInside ihRest =>
    simp [Token.rise, opened, ihInside, ihRest]

theorem Token.neg_count_le_rise {t : Token} (h : t.isText = false → BeginsTag t.source.toList) :
    -(t.source.toList.count '<' : Int) ≤ t.rise := by
  cases t with
  | text value place => simp [rise]
  | opening tag => cases hclosed : tag.selfClosing <;> simp [rise, hclosed]
  | closing name source place =>
    have hmem : '<' ∈ source.toList := by
      rcases h rfl with hp | hp <;> exact hp.subset (by simp [openMark, closeMark])
    have hpos := List.count_pos_iff.2 hmem
    simp only [rise, Token.source]
    omega

theorem neg_count_le_rise {offset : Nat} {cs : List Char} {ts : List Token}
    (h : lex none offset cs = .ok ts) : -(cs.count '<' : Int) ≤ rise ts := by
  have hmarks := lex_beginsTag h
  rw [← (lex_tiles h).written]
  clear h
  induction ts with
  | nil => simp [written]
  | cons t ts ih =>
    rw [List.forall_mem_cons] at hmarks
    have hfirst := Token.neg_count_le_rise hmarks.1
    have hrest := ih hmarks.2
    rw [written_cons, List.count_append, rise_cons]
    push_cast
    omega

def Overflows (cs : List Char) : Prop :=
  ∀ offset rest ts, atTag rest = true → lex none offset (cs ++ rest) = .ok ts →
    0 < rise ts + rest.count '<'

theorem count_textRun_lt {rest : List Char} (h : atTag rest = true) :
    (textRun ⟨0, true⟩ rest).2.count '<' < rest.count '<' := by
  cases rest with
  | nil => cases h
  | cons c cs =>
    obtain rfl : c = '<' := EndsText.head (Or.inr h) c rfl
    have hclose : ¬ commentClose <+: '<' :: cs := by
      intro hp
      cases (List.cons_prefix_cons.1 hp).1
    have hsuffix : (textRun ⟨0, true⟩ cs).2 <:+ cs := ⟨_, textRun_append _ _⟩
    rw [textRun_comment_cons hclose, List.count_cons_self]
    exact Nat.lt_succ_of_le (hsuffix.sublist.count_le '<')

theorem overflows_of_readsOpen {cs : List Char} {ts : List Token} (h : ReadsOpen 0 cs ts)
    (hrise : rise ts = 0) : Overflows cs := by
  intro offset rest us hrest hus
  obtain ⟨front, run, place, rfl, hopen⟩ := h
  obtain ⟨run', stop, hlex⟩ := hopen rest (Or.inr hrest)
  rw [← Nat.zero_add offset, lex_shift, mapError_eq_ok, map_eq_ok] at hus
  obtain ⟨us', hus, rfl⟩ := hus
  rw [hlex, map_eq_ok] at hus
  obtain ⟨tail, htail, rfl⟩ := hus
  have hbound := neg_count_le_rise htail
  have hcount := count_textRun_lt hrest
  simp only [rise_append, rise_cons, rise_nil, rise_shift, Token.rise] at hrise ⊢
  omega

theorem count_writeClosing {path : TagPath} (hpath : path.Segmented) :
    (writeClosing path.written).count '<' = 1 := by
  have hwritten : '<' ∉ path.written := by
    intro h
    have hchar := hpath.isNameChar '<' h
    revert hchar
    decide
  rw [writeClosing, List.count_append, List.count_append, List.count_eq_zero_of_not_mem hwritten]
  rfl

theorem lex_overflows {t : WrittenTag} {path : TagPath} (hpath : path.Segmented)
    {body : List Char} (hbody : t.body = some body) (h : Overflows body) {offset : Nat}
    {rest : List Char} {ts : List Token}
    (hts : lex none offset (t.write path.written ++ rest) = .ok ts) :
    0 < rise ts + rest.count '<' := by
  obtain ⟨tag, stop, hopens, hlex⟩ :=
    lex_opening hpath.isName offset (body ++ (writeClosing path.written ++ rest)) t
  rw [WrittenTag.write, hbody, Option.elim, List.append_assoc, List.append_assoc, hlex,
    map_eq_ok] at hts
  obtain ⟨us, hus, rfl⟩ := hts
  have hinner := h stop (writeClosing path.written ++ rest) us rfl hus
  have hopened : tag.selfClosing = false := by rw [hopens.selfClosing, hbody]; rfl
  rw [List.count_append, count_writeClosing hpath] at hinner
  simp only [rise_cons, Token.rise, hopened, Bool.false_eq_true, if_false]
  push_cast at hinner
  omega

theorem lex_nested_overflows {t : WrittenTag} {body : List Char} (hbody : t.body = some body)
    (h : Overflows body) (name : String) (extension : Option String) (outer : List String)
    (hpath : TagPath.Segmented ⟨extension, outer, name⟩) {offset : Nat} {rest : List Char}
    {ts : List Token} (hts : lex none offset (t.nested name extension outer ++ rest) = .ok ts) :
    0 < rise ts + rest.count '<' := by
  induction outer generalizing extension offset rest ts with
  | nil => exact lex_overflows hpath hbody h hts
  | cons outer inner ih =>
    have hinner : Overflows (t.nested name none inner) := fun offset rest ts _ hts =>
      ih none hpath.tail hts
    exact lex_overflows (t := .around (t.nested name none inner)) hpath.head rfl hinner hts

theorem parse_eq_none_of_rise {cs : List Char}
    (h : ∀ ts, lex none 0 (cs ++ []) = .ok ts → 0 < rise ts + ([] : List Char).count '<') :
    (parseWindow none 0 cs).toOption = none := by
  cases hparse : parseWindow none 0 cs with
  | error failure => rfl
  | ok nodes =>
    obtain ⟨ts, hts, hderives⟩ := parseWindow_eq_ok_iff_derives.1 hparse
    rw [whole_tokens, ← List.append_nil cs] at hts
    have hrise := h ts hts
    rw [hderives.balanced.rise_eq] at hrise
    simp at hrise

theorem readsAs_or_overflows {cs : List Char} {nodes : List Node}
    (h : parseWindow none 0 cs = .ok nodes) : ReadsAs cs (some nodes) ∨ Overflows cs := by
  obtain ⟨ts, hts, hderives⟩ := parseWindow_eq_ok_iff_derives.1 h
  rw [whole_tokens] at hts
  rcases lex_append hts with hwhole | hopen
  · left
    intro offset rest hrest
    obtain ⟨stop, hlex⟩ := hwhole rest hrest
    refine ⟨ts.map (·.shift offset), stop + offset, ?_, fun frames before rest' => ?_⟩
    · rw [← Nat.zero_add offset, lex_shift, lex_shift, hlex, Nat.zero_add]
      cases lex none stop rest <;> simp [Except.map, mapError_ok, mapError_error]
    · have hparse : parseWindow none offset cs = .ok nodes := parseWindow_eq_ok_iff.2 h
      rw [parseWindow_eq, ← Nat.zero_add offset, lex_shift, hts] at hparse
      rw [Option.bind_some, assemble_of_derives (assemble_eq_ok_iff.1 hparse)]
  · exact Or.inr (overflows_of_readsOpen hopen hderives.balanced.rise_eq)

theorem parse_dotted_eq (t : WrittenTag) (path : TagPath) (hpath : path.Segmented)
    (hbody : ∀ body ∈ t.body, ∃ nodes, parseWindow none 0 body = .ok nodes) :
    (parseWindow none 0 (t.write path.written)).toOption =
      (parseWindow none 0 (t.nested path.name path.extension path.outer)).toOption := by
  have hread : ∀ result, t.Holds result →
      (parseWindow none 0 (t.write path.written)).toOption =
        (parseWindow none 0 (t.nested path.name path.extension path.outer)).toOption :=
    fun result h => (readsAs_tag hpath h).parse.trans
      (readsAs_nested h path.name path.extension path.outer hpath).parse.symm
  cases hb : t.body with
  | none => exact hread (some []) (by rw [WrittenTag.Holds, hb])
  | some body =>
    obtain ⟨nodes, hnodes⟩ := hbody body hb
    -- A comment that is left open takes a closing tag with it, so that neither text compiles.
    rcases readsAs_or_overflows hnodes with hreads | hoverflows
    · exact hread (some nodes) (by rwa [WrittenTag.Holds, hb])
    · rw [parse_eq_none_of_rise fun ts hts => lex_overflows hpath hb hoverflows hts,
        parse_eq_none_of_rise fun ts hts =>
          lex_nested_overflows hb hoverflows path.name path.extension path.outer hpath hts]

/-- Under a dotted name a tag compiles if and only if the tags of its path around it do, and then to
the same tree, whatever quoted attributes it has and whatever body that compiles on its own, or
without one. -/
theorem compile_dotted (path : TagPath) (hpath : path.Segmented) (t : WrittenTag)
    (hbody : ∀ body ∈ t.body, ∃ nodes, compile (String.ofList body) none = .ok nodes)
    (template : Option String) (nodes : List Node) :
    compile (String.ofList (t.write path.written)) template = .ok nodes ↔
      compile (String.ofList (t.nested path.name path.extension path.outer)) template =
        .ok nodes := by
  have hparse := parse_dotted_eq t path hpath fun body hb => by
    obtain ⟨inner, hinner⟩ := hbody body hb
    exact ⟨inner, by simpa [compile_eq_ok_iff] using hinner⟩
  rw [compile_eq_ok_iff, compile_eq_ok_iff, String.toList_ofList, String.toList_ofList,
    ← toOption_eq_some_iff, ← toOption_eq_some_iff, hparse]

/-- An extension, blanks around an equals sign and before the bracket, and a tag in the body. -/
theorem compile_dotted_extension :
    let path : TagPath := ⟨some "ui", ["a-", "_c"], "d"⟩
    let e : QuotedAttribute := ⟨[' '], "e", [], ['\n'], '\'', "<pop:f/>".toList,
      List.cons_ne_nil _ _, List.forall_mem_singleton.2 (by decide), by decide, nofun,
      List.forall_mem_singleton.2 (by decide), rfl, by decide⟩
    let t : WrittenTag := ⟨[e], [' '], some "x<pop:g/>".toList,
      List.forall_mem_singleton.2 (by decide)⟩
    path.Segmented ∧ (∀ body ∈ t.body, ∃ nodes, compile (String.ofList body) none = .ok nodes) ∧
      String.ofList (t.write path.written) =
        "<pop:ui:a-._c.d e=\n'<pop:f/>' >x<pop:g/></pop:ui:a-._c.d>" ∧
      String.ofList (t.nested path.name path.extension path.outer) = "<pop:ui:a-><pop:_c>" ++
        "<pop:d e=\n'<pop:f/>' >x<pop:g/></pop:d></pop:_c></pop:ui:a->" ∧
      ∃ nodes, compile (String.ofList (t.write path.written)) none = .ok nodes ∧
        compile (String.ofList (t.nested path.name path.extension path.outer)) none = .ok nodes := by
  intro path e t
  have hpath : path.Segmented := by
    refine ⟨?_, ?_⟩
    · rintro e ⟨⟩
      exact ⟨'u', ['i'], rfl, by decide, List.forall_mem_singleton.2 (Or.inl (by decide))⟩
    · have ha : IsSegment "a-" :=
        ⟨'a', ['-'], rfl, by decide, List.forall_mem_singleton.2 (Or.inr rfl)⟩
      have hc : IsSegment "_c" :=
        ⟨'_', ['c'], rfl, by decide, List.forall_mem_singleton.2 (Or.inl (by decide))⟩
      have hd : IsSegment "d" := ⟨'d', [], rfl, by decide, nofun⟩
      exact List.forall_mem_cons.2 ⟨ha, List.forall_mem_cons.2 ⟨hc, List.forall_mem_singleton.2 hd⟩⟩
  have hbody : ∀ body ∈ t.body, ∃ nodes, compile (String.ofList body) none = .ok nodes := by
    rintro body ⟨⟩
    have hok : (compile "x<pop:g/>" none).map (fun _ => ()) = .ok () := by decide +kernel
    obtain ⟨nodes, hnodes, -⟩ := map_eq_ok.1 hok
    exact ⟨nodes, hnodes⟩
  have hok : (compile (String.ofList (t.write path.written)) none).map (fun _ => ()) = .ok () := by
    decide +kernel
  obtain ⟨nodes, hnodes, -⟩ := map_eq_ok.1 hok
  exact ⟨hpath, hbody, by decide +kernel, by decide +kernel, nodes, hnodes,
    (compile_dotted path hpath t hbody none nodes).1 hnodes⟩

end TagTemplate.Markup
