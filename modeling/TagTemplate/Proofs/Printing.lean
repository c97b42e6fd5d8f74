import Mathlib.Data.List.TakeWhile
import TagTemplate.Proofs.Grammar

/-!
# Printing templates

A tree is printed as a template that compiles to it. Values stand in double quotes, except those of
tags that are inside a value already, which stand in single quotes.
-/

namespace TagTemplate.Markup

open TagTemplate.Text (isBlank isWord)

def quoteMark (inside : Bool) : Char := if inside then '\'' else '"'

def tagEnd (selfClosing : Bool) : List Char := if selfClosing then ['/', '>'] else ['>']

mutual

def Node.print (inside : Bool) : Node → List Char
  | .text value => value.toList
  | .tag t => t.print inside

def Tag.print (inside : Bool) : Tag → List Char
  | { name, extension, attributes, children, selfClosing } =>
    let qualified := (Tag.mk name extension attributes children selfClosing).qualifiedName.toList
    openMark ++ qualified ++ printAttributes inside attributes ++ tagEnd selfClosing ++
      if selfClosing then [] else printNodes inside children ++ closeMark ++ qualified ++ ['>']

def AttributeValue.print : AttributeValue → List Char
  | .literal value => value.toList
  | .markup nodes => printNodes true nodes

def printNodes (inside : Bool) : List Node → List Char
  | [] => []
  | n :: ns => n.print inside ++ printNodes inside ns

def printAttributes (inside : Bool) : List (String × AttributeValue) → List Char
  | [] => []
  | (name, v) :: as =>
    ' ' :: (name.toList ++ '=' :: quoteMark inside :: (v.print ++
      quoteMark inside :: printAttributes inside as))

end

def printed (nodes : List Node) : String := String.ofList (printNodes false nodes)

def IsName (name : String) : Prop := readName name.toList = some (name, [])

instance : DecidablePred IsName := fun _ => inferInstanceAs (Decidable (_ = _))

def MarkFree (cs : List Char) : Prop :=
  ¬openMark <:+: cs ∧ ¬closeMark <:+: cs ∧ ¬commentOpen <:+: cs

def Node.isText : Node → Bool
  | .text _ => true
  | .tag _ => false

mutual

def Node.Printable (inside : Bool) : Node → Prop
  | .text value => value ≠ "" ∧ MarkFree value.toList
  | .tag t => t.Printable inside

def Tag.Printable (inside : Bool) : Tag → Prop
  | { name, extension, attributes, children, selfClosing } =>
    (IsName name ∧ '.' ∉ name.toList ∧ ':' ∉ name.toList) ∧
    (∀ e ∈ extension, IsName e ∧ ':' ∉ e.toList) ∧
    (attributes.map Prod.fst).Nodup ∧ AttributesPrintable inside attributes ∧
    (selfClosing = true → children = []) ∧ NodesPrintable inside children

def AttributeValue.Printable (inside : Bool) : AttributeValue → Prop
  | .literal value =>
    ¬openMark <:+: value.toList ∧ '"' ∉ value.toList ∧ (inside = true → '\'' ∉ value.toList)
  | .markup nodes =>
    NodesPrintable true nodes ∧ (∃ t, .tag t ∈ nodes) ∧ '"' ∉ printNodes true nodes ∧
      (inside = true → '\'' ∉ printNodes true nodes)

def NodesPrintable (inside : Bool) : List Node → Prop
  | [] => True
  | n :: ns => n.Printable inside ∧ (n.isText = true → ∀ n' ∈ ns.head?, n'.isText = false) ∧
    NodesPrintable inside ns

def AttributesPrintable (inside : Bool) : List (String × AttributeValue) → Prop
  | [] => True
  | (name, v) :: as => IsName name ∧ v.Printable inside ∧ AttributesPrintable inside as

end

theorem toNat_of_isNameStart {c : Char} (h : isNameStart c = true) :
    65 ≤ c.toNat ∧ c.toNat ≤ 122 := by
  have hranges : isNameStart c = (decide (c.val ≥ 'A'.val ∧ c.val ≤ 'Z'.val) ||
      (decide (c.val ≥ 'a'.val) && decide (c.val ≤ 'z'.val)) || c == '_') := rfl
  simp only [hranges, Bool.or_eq_true, Bool.and_eq_true, decide_eq_true_eq, beq_iff_eq,
    UInt32.le_iff_toNat_le] at h
  rcases h with (h | h) | rfl
  · exact ⟨h.1, Nat.le_trans h.2 (by decide)⟩
  · exact ⟨Nat.le_trans (by decide) h.1, h.2⟩
  · decide

theorem isBlank_of_isNameStart {c : Char} (h : isNameStart c = true) : isBlank c = false := by
  have hc := toNat_of_isNameStart h
  rw [isBlank, ← Bool.not_eq_true, Text.Ranges.has_iff]
  rintro ⟨r, hr, hle⟩
  simp only [Text.blankRanges, List.mem_cons, List.not_mem_nil, or_false] at hr
  rcases hr with rfl | rfl | rfl | rfl | rfl | rfl | rfl | rfl | rfl | rfl <;>
    (dsimp only at hle; omega)

theorem isName_iff {name : String} :
    IsName name ↔ ∃ c cs, name.toList = c :: cs ∧ isNameStart c = true ∧
      ∀ x ∈ cs, isNameChar x = true := by
  unfold IsName
  constructor
  · intro h
    cases hname : name.toList with
    | nil => simp [hname, readName] at h
    | cons c cs =>
      rw [hname, readName] at h
      split at h
      · next hc =>
        refine ⟨c, cs, rfl, hc, ?_⟩
        simp only [Option.some.injEq, Prod.mk.injEq] at h
        simpa using h.2
      · cases h
  · rintro ⟨c, cs, hname, hc, hcs⟩
    rw [hname, readName, if_pos hc, List.takeWhile_eq_self_iff.2 hcs,
      List.dropWhile_eq_nil_iff.2 hcs, ← hname, String.ofList_toList]

theorem IsName.read {name : String} (h : IsName name) {rest : List Char}
    (hrest : ∀ c ∈ rest.head?, isNameChar c = false) :
    readName (name.toList ++ rest) = some (name, rest) := by
  obtain ⟨c, cs, hname, hc, hcs⟩ := isName_iff.1 h
  have hstop : rest.takeWhile isNameChar = [] ∧ rest.dropWhile isNameChar = rest := by
    cases rest with
    | nil => exact ⟨rfl, rfl⟩
    | cons x rest => simp [hrest x rfl]
  rw [hname, List.cons_append, readName, if_pos hc, List.takeWhile_append_of_pos hcs,
    List.dropWhile_append_of_pos hcs, hstop.1, hstop.2, List.append_nil, ← hname,
    String.ofList_toList]

theorem isNameChar_of_isNameStart {c : Char} (h : isNameStart c = true) :
    isNameChar c = true := by
  have hascii : c.toNat < 0x80 := Nat.lt_of_le_of_lt (toNat_of_isNameStart h).2 (by decide)
  have hword : isWord c = true := by
    rw [isNameStart, Bool.or_eq_true] at h
    rw [isWord, if_pos hascii, Char.isAlphanum, Bool.or_eq_true, Bool.or_eq_true]
    exact h.imp_left Or.inl
  simp [isNameChar, hword]

theorem IsName.qualified {extension name : String} (hextension : IsName extension)
    (hname : IsName name) : IsName (extension ++ ":" ++ name) := by
  obtain ⟨c, cs, hc, hstart, hcs⟩ := isName_iff.1 hextension
  obtain ⟨d, ds, hd, hstart', hds⟩ := isName_iff.1 hname
  refine isName_iff.2 ⟨c, cs ++ ':' :: d :: ds, by simp [hc, hd], hstart, ?_⟩
  simp only [List.mem_append, List.mem_cons]
  rintro x (hx | rfl | rfl | hx)
  · exact hcs x hx
  · decide
  · exact isNameChar_of_isNameStart hstart'
  · exact hds x hx

theorem skipBlank_cons {c : Char} (h : isBlank c = false) (cs : List Char) :
    skipBlank (c :: cs) = c :: cs := by
  simp [skipBlank, h]

theorem IsName.skipBlank {name : String} (h : IsName name) (rest : List Char) :
    Markup.skipBlank (name.toList ++ rest) = name.toList ++ rest := by
  obtain ⟨c, cs, hname, hc, -⟩ := isName_iff.1 h
  rw [hname, List.cons_append, skipBlank_cons (isBlank_of_isNameStart hc)]

theorem readTagEnd_tagEnd (selfClosing : Bool) (rest : List Char) :
    readTagEnd (tagEnd selfClosing ++ rest) = some (selfClosing, rest) := by
  cases selfClosing with
  | false => simp [readTagEnd, tagEnd, skipBlank_cons (c := '>') (by decide)]
  | true => simp [readTagEnd, tagEnd, skipBlank_cons (c := '/') (by decide)]

section Attribute

variable {name : String} (hname : IsName name) (rest : List Char)

include hname

theorem readTagEnd_name : readTagEnd (' ' :: (name.toList ++ rest)) = none := by
  have hskip : Markup.skipBlank (' ' :: (name.toList ++ rest)) = name.toList ++ rest := by
    refine Eq.trans ?_ (hname.skipBlank rest)
    exact List.dropWhile_cons_of_pos Text.isBlank_space
  obtain ⟨c, cs, hcs, hc, -⟩ := isName_iff.1 hname
  have hrange := toNat_of_isNameStart hc
  rw [readTagEnd, hskip, hcs, List.cons_append]
  split
  · next heq =>
    obtain ⟨rfl, -⟩ := List.cons.inj heq
    exact absurd hrange (by decide)
  · next heq =>
    obtain ⟨rfl, -⟩ := List.cons.inj heq
    exact absurd hrange (by decide)
  · rfl

theorem readAttributeName_name {c : Char} (hc : isBlank c = false) :
    readAttributeName (' ' :: (name.toList ++ '=' :: c :: rest)) = some (name, c :: rest) := by
  have heq : ∀ x ∈ ('=' :: c :: rest).head?, isNameChar x = false := by
    simp [show isNameChar '=' = false by decide]
  rw [readAttributeName, if_pos Text.isBlank_space, hname.skipBlank, hname.read heq]
  simp only [skipBlank_cons (show isBlank '=' = false by decide), skipBlank_cons hc]

end Attribute

theorem readValue_quoted {quote : Char} (hquote : isQuote quote = true) {value : List Char}
    (h : quote ∉ value) (beyond : Option Char) (rest : List Char) :
    readValue beyond (quote :: (value ++ quote :: rest)) =
      .ok (quote, value, value ++ quote :: rest, rest) := by
  have hvalue : ∀ c ∈ value, (c != quote) = true := by
    intro c hc
    rw [bne_iff_ne]
    rintro rfl
    exact h hc
  rw [readValue, if_pos hquote, List.dropWhile_append_of_pos hvalue,
    List.takeWhile_append_of_pos hvalue]
  simp

theorem isQuote_quoteMark (inside : Bool) : isQuote (quoteMark inside) = true := by
  cases inside <;> rfl

theorem isBlank_quoteMark (inside : Bool) : isBlank (quoteMark inside) = false := by
  cases inside <;> decide

theorem readAttribute_printed {name : String} (hname : IsName name) {inside : Bool}
    {value : List Char} (h : quoteMark inside ∉ value) (offset : Nat) (rest : List Char) :
    ∃ start, readAttribute none offset
        (' ' :: (name.toList ++ '=' :: quoteMark inside :: (value ++ quoteMark inside :: rest))) =
      .ok (⟨name, value, start, quoteMark inside⟩, rest) := by
  rw [readAttribute, readAttributeName_name hname _ (isBlank_quoteMark inside)]
  dsimp only
  rw [readValue_quoted (isQuote_quoteMark inside) h]
  exact ⟨_, rfl⟩

theorem readAttributes_printed {inside : Bool} {as : List (String × AttributeValue)}
    (h : ∀ p ∈ as, IsName p.1 ∧ quoteMark inside ∉ p.2.print ∧
      ∀ a : RawAttribute, a.value = p.2.print → a.Means p.2)
    (selfClosing : Bool) (offset : Nat) (rest : List Char) :
    ∃ raw, List.Forall₂ (fun a p => p.1 = RawAttribute.name a ∧ a.Means p.2) raw as ∧
      readAttributes none offset (printAttributes inside as ++ (tagEnd selfClosing ++ rest)) =
        .ok (raw, selfClosing, rest) := by
  induction as generalizing offset with
  | nil => exact ⟨[], .nil, readAttributes_of_end (readTagEnd_tagEnd selfClosing rest)⟩
  | cons p as ih =>
    obtain ⟨name, v⟩ := p
    rw [List.forall_mem_cons] at h
    obtain ⟨hname, hquote, hmeans⟩ := h.1
    obtain ⟨start, hread⟩ := readAttribute_printed hname hquote offset
      (printAttributes inside as ++ (tagEnd selfClosing ++ rest))
    obtain ⟨raw, hraw, hrest⟩ := ih h.2 (offset + (_ - _))
    refine ⟨⟨name, v.print, start, quoteMark inside⟩ :: raw, .cons ⟨rfl, hmeans _ rfl⟩ hraw, ?_⟩
    rw [printAttributes]
    simp only [List.cons_append, List.append_assoc]
    rw [readAttributes_of_attribute (readTagEnd_name hname _), hread, Except.bind, hrest]
    rfl

/-- What follows a text: nothing, or a tag. -/
def EndsText (rest : List Char) : Prop := rest = [] ∨ atTag rest = true

theorem EndsText.head {rest : List Char} (h : EndsText rest) : ∀ c ∈ rest.head?, c = '<' := by
  rcases h with rfl | h
  · exact nofun
  · rw [atTag, Bool.or_eq_true, List.isPrefixOf_iff_prefix, List.isPrefixOf_iff_prefix] at h
    rcases h with ⟨r, rfl⟩ | ⟨r, rfl⟩ <;> simp [openMark, closeMark]

theorem prefix_of_prefix_append {x : Char} {m s rest : List Char} (hs : s ≠ [])
    (hrest : ∀ c ∈ rest.head?, c ∉ m) (h : x :: m <+: s ++ rest) : x :: m <+: s := by
  obtain ⟨r, hr⟩ := h
  rcases List.append_eq_append_iff.1 hr with ⟨r', rfl, -⟩ | ⟨m', hmark, rfl⟩
  · exact List.prefix_append _ _
  · cases m' with
    | nil =>
      rw [List.append_nil] at hmark
      exact hmark ▸ List.prefix_rfl
    | cons c m' =>
      cases s with
      | nil => exact absurd rfl hs
      | cons y s =>
        obtain ⟨-, rfl⟩ := List.cons.inj hmark
        exact absurd (List.mem_append_right s List.mem_cons_self) (hrest c rfl)

theorem MarkFree.tail {c : Char} {text : List Char} (h : MarkFree (c :: text)) : MarkFree text :=
  ⟨mt List.infix_cons h.1, mt List.infix_cons h.2.1, mt List.infix_cons h.2.2⟩

theorem MarkFree.isPrefixOf {m text rest : List Char} (hm : '<' ∉ m)
    (htext : text ≠ []) (hrest : EndsText rest) (h : ¬ '<' :: m <:+: text) :
    ('<' :: m).isPrefixOf (text ++ rest) = false := by
  rw [← Bool.not_eq_true, List.isPrefixOf_iff_prefix]
  have hbreak : ∀ c ∈ rest.head?, c ∉ m := fun c hc => hrest.head c hc ▸ hm
  exact fun hp => h (prefix_of_prefix_append htext hbreak hp).isInfix

theorem textRun_printed {text rest : List Char} (htext : MarkFree text) (hrest : EndsText rest) :
    textRun .plain (text ++ rest) = (text, rest) := by
  induction text with
  | nil =>
    cases rest with
    | nil => rfl
    | cons c rest =>
      have htag : atTag (c :: rest) = true := by simpa [EndsText] using hrest
      have hcomment : commentOpen.isPrefixOf (c :: rest) = false := by
        rw [← Bool.not_eq_true]
        exact fun h => by simp [not_atTag_of_commentOpen h] at htag
      simp [textRun, RunState.plain, RunState.next?, htag, hcomment]
  | cons c text ih =>
    have hmark : ∀ m, '<' ∉ m → ¬ '<' :: m <:+: c :: text →
        ('<' :: m).isPrefixOf (c :: (text ++ rest)) = false := fun m hm =>
      MarkFree.isPrefixOf hm (List.cons_ne_nil _ _) hrest
    have hopen : openMark.isPrefixOf (c :: (text ++ rest)) = false := hmark _ (by decide) htext.1
    have hclose : closeMark.isPrefixOf (c :: (text ++ rest)) = false :=
      hmark _ (by decide) htext.2.1
    have hcomment : commentOpen.isPrefixOf (c :: (text ++ rest)) = false :=
      hmark _ (by decide) htext.2.2
    have hnext : RunState.plain.next? (c :: (text ++ rest)) = some .plain := by
      simp [RunState.plain, RunState.next?, atTag, hopen, hclose, hcomment]
    rw [List.cons_append, textRun, hnext]
    dsimp only
    rw [ih htext.tail]

theorem Tag.print_eq (inside : Bool) (t : Tag) :
    t.print inside = openMark ++ (t.qualifiedName.toList ++ (printAttributes inside t.attributes ++
      (tagEnd t.selfClosing ++ if t.selfClosing then [] else printNodes inside t.children ++
        (closeMark ++ (t.qualifiedName.toList ++ ['>']))))) := by
  cases t with
  | mk name extension attributes children selfClosing =>
    cases selfClosing <;> simp [Tag.print]

theorem head_printAttributes (inside selfClosing : Bool) (as : List (String × AttributeValue))
    (rest : List Char) :
    ∀ c ∈ (printAttributes inside as ++ (tagEnd selfClosing ++ rest)).head?,
      isNameChar c = false := by
  have hspace : isNameChar ' ' = false := by decide
  have hslash : isNameChar '/' = false := by decide
  have hbracket : isNameChar '>' = false := by decide
  cases as with
  | nil => cases selfClosing <;> simp [printAttributes, tagEnd, hslash, hbracket]
  | cons p as => simp [printAttributes, hspace]

theorem readTag_opening {name : String} (hname : IsName name) {inside : Bool}
    {as : List (String × AttributeValue)}
    (h : ∀ p ∈ as, IsName p.1 ∧ quoteMark inside ∉ p.2.print ∧
      ∀ a : RawAttribute, a.value = p.2.print → a.Means p.2)
    (selfClosing : Bool) (offset : Nat) (rest : List Char) :
    ∃ tag : Opening, (tag.name = name ∧ tag.selfClosing = selfClosing) ∧
      List.Forall₂ (fun a p => p.1 = RawAttribute.name a ∧ a.Means p.2) tag.attributes as ∧
      readTag none offset (openMark ++ (name.toList ++ (printAttributes inside as ++
        (tagEnd selfClosing ++ rest)))) = .ok (.opening tag, rest) := by
  have hnot : closeMark.isPrefixOf (openMark ++ (name.toList ++ (printAttributes inside as ++
      (tagEnd selfClosing ++ rest)))) = false := rfl
  obtain ⟨raw, hraw, hread⟩ := readAttributes_printed h selfClosing (offset + (_ - _)) rest
  unfold readTag
  rw [if_neg (by simp [hnot]), List.drop_left, readOpening,
    hname.read (head_printAttributes inside selfClosing as rest)]
  dsimp only
  rw [hread]
  exact ⟨⟨name, raw, selfClosing, _, offset⟩, ⟨rfl, rfl⟩, hraw, rfl⟩

theorem readTag_closing {name : String} (hname : IsName name) (offset : Nat) (rest : List Char) :
    ∃ source, readTag none offset (closeMark ++ (name.toList ++ ['>']) ++ rest) =
      .ok (.closing name source offset, rest) := by
  have hend : ∀ c ∈ ('>' :: rest).head?, isNameChar c = false := by
    simp [show isNameChar '>' = false by decide]
  simp only [List.append_assoc, List.singleton_append]
  unfold readTag
  rw [if_pos (by simp [List.isPrefixOf_iff_prefix]), List.drop_left, readClosing, hname.read hend]
  simp only [readClosingEnd, skipBlank_cons (show isBlank '>' = false by decide)]
  exact ⟨_, rfl⟩

def NodesRead (inside : Bool) (nodes : List Node) : Prop :=
  ∀ offset rest, EndsText rest → ∃ ts stop, Derives RawAttribute.Means ts nodes ∧
    lex none offset (printNodes inside nodes ++ rest) = (lex none stop rest).map (ts ++ ·)

def Node.Read (inside : Bool) (n : Node) : Prop :=
  ∀ offset rest, (n.isText = true → EndsText rest) → ∃ ts stop,
    (∀ ts' nodes, Derives RawAttribute.Means ts' nodes →
      Derives RawAttribute.Means (ts ++ ts') (n :: nodes)) ∧
    lex none offset (n.print inside ++ rest) = (lex none stop rest).map (ts ++ ·)

def AttributeRead (inside : Bool) (p : String × AttributeValue) : Prop :=
  IsName p.1 ∧ quoteMark inside ∉ p.2.print ∧ ∀ a : RawAttribute, a.value = p.2.print → a.Means p.2

theorem NodesRead.parse {inside : Bool} {nodes : List Node} (h : NodesRead inside nodes) :
    parseWindow none 0 (printNodes inside nodes) = .ok nodes := by
  obtain ⟨ts, stop, hts, hlex⟩ := h 0 [] (Or.inl rfl)
  rw [List.append_nil, lex_nil, Except.map, List.append_nil] at hlex
  exact parseWindow_eq_ok_iff_derives.2 ⟨ts, (whole_tokens _).trans hlex, hts⟩

theorem lex_of_readTag {offset : Nat} {cs rest : List Char} {t : Token} (hat : atTag cs = true)
    (h : readTag none offset cs = .ok (t, rest)) :
    ∃ stop, lex none offset cs = (lex none stop rest).map (t :: ·) := by
  rw [lex_of_tag hat, h]
  exact ⟨_, rfl⟩

theorem IsName.ne_empty {name : String} (h : IsName name) : name ≠ "" := by
  rintro rfl
  cases h

section Tags

variable {inside : Bool} {t : Tag}

theorem Tag.toList_qualifiedName (h : ∀ e ∈ t.extension, e ≠ "") :
    t.qualifiedName.toList = TagPath.written ⟨t.extension, [], t.name⟩ := by
  unfold Tag.qualifiedName
  split
  · next hextension => simp [TagPath.written, TagPath.segments, hextension]
  · next hextension => exact absurd rfl (h _ hextension)
  · next hextension => simp [TagPath.written, TagPath.segments, hextension]

theorem Tag.expands_printed (h : t.Printable inside) {tag : Opening}
    (hname : tag.name = t.qualifiedName) (hclosed : tag.selfClosing = t.selfClosing)
    (hvalues : List.Forall₂ (fun a p => p.1 = RawAttribute.name a ∧ a.Means p.2) tag.attributes
      t.attributes) : tag.Expands RawAttribute.Means t.children t := by
  obtain ⟨name, extension, attributes, children, selfClosing⟩ := t
  obtain ⟨⟨hn, hdot, hcolon⟩, hextension, hnodup, -⟩ := h
  refine ⟨⟨extension, [], name⟩, attributes, attributes, ⟨⟨?_, ?_⟩, ?_⟩, hvalues, ?_, ?_⟩
  · intro e he
    exact ⟨(hextension e he).1.ne_empty, (hextension e he).2⟩
  · simpa [TagPath.segments] using ⟨hn.ne_empty, hdot, hcolon⟩
  · rw [hname]
    exact Tag.toList_qualifiedName fun e he => (hextension e he).1.ne_empty
  · exact OrderedMap.keepsLast_iff.2 (OrderedMap.ofPairs_of_nodup hnodup).symm
  · rw [hclosed]
    rfl

theorem Tag.isName_qualifiedName (h : t.Printable inside) : IsName t.qualifiedName := by
  obtain ⟨name, extension, attributes, children, selfClosing⟩ := t
  obtain ⟨⟨hn, -⟩, hextension, -⟩ := h
  unfold Tag.qualifiedName
  dsimp only
  split
  · exact hn
  · exact hn
  · exact (hextension _ rfl).1.qualified hn

theorem Tag.read_printed (h : t.Printable inside)
    (hattributes : ∀ p ∈ t.attributes, AttributeRead inside p)
    (hchildren : NodesRead inside t.children) : (Node.tag t).Read inside := by
  intro offset rest _
  have hname := Tag.isName_qualifiedName h
  obtain ⟨tag, ⟨htag, hclosed⟩, hvalues, hread⟩ :=
    readTag_opening hname hattributes t.selfClosing offset
      ((if t.selfClosing then [] else printNodes inside t.children ++
        (closeMark ++ (t.qualifiedName.toList ++ ['>']))) ++ rest)
  have hexpands := Tag.expands_printed h htag hclosed hvalues
  obtain ⟨inner, hopening⟩ := lex_of_readTag rfl hread
  rw [Node.print, Tag.print_eq]
  simp only [List.append_assoc] at hopening ⊢
  rw [hopening]
  cases hself : t.selfClosing with
  | true =>
    have hnil : t.children = [] := by
      obtain ⟨name, extension, attributes, children, selfClosing⟩ := t
      exact h.2.2.2.2.1 hself
    rw [hnil] at hexpands
    exact ⟨[.opening tag], inner, fun _ _ => .selfClosing (hclosed.trans hself) hexpands, rfl⟩
  | false =>
    have hclose : atTag (closeMark ++ (t.qualifiedName.toList ++ ['>']) ++ rest) = true := rfl
    obtain ⟨ts, stop, hts, hlex⟩ := hchildren inner _ (Or.inr hclose)
    obtain ⟨source, hreadClosing⟩ := readTag_closing hname stop rest
    obtain ⟨after, hclosing⟩ := lex_of_readTag hclose hreadClosing
    refine ⟨.opening tag :: (ts ++ [.closing t.qualifiedName source stop]), after, ?_, ?_⟩
    · intro ts' nodes hrest
      have hpair := Derives.pair source stop (hclosed.trans hself) hts hexpands hrest
      rw [htag] at hpair
      simpa using hpair
    · rw [hclosing] at hlex
      simp only [List.append_assoc, Bool.false_eq_true, if_false] at hlex ⊢
      rw [hlex]
      cases lex none after rest <;> simp [Except.map]

end Tags

theorem openMark_infix_printNodes (inside : Bool) {t : Tag} {nodes : List Node}
    (h : .tag t ∈ nodes) : openMark <:+: printNodes inside nodes := by
  obtain ⟨before, after, rfl⟩ := List.append_of_mem h
  induction before with
  | nil =>
    rw [List.nil_append, printNodes, Node.print, Tag.print_eq, List.append_assoc]
    exact (List.prefix_append _ _).isInfix
  | cons n before ih =>
    rw [List.cons_append, printNodes]
    exact (ih (by simp)).trans (List.suffix_append _ _).isInfix

theorem endsText_printNodes (inside : Bool) {nodes : List Node} {rest : List Char}
    (h : ∀ n ∈ nodes.head?, n.isText = false) (hrest : EndsText rest) :
    EndsText (printNodes inside nodes ++ rest) := by
  cases nodes with
  | nil => exact hrest
  | cons n nodes =>
    cases n with
    | text value => cases h _ rfl
    | tag t =>
      rw [printNodes, Node.print, Tag.print_eq]
      exact Or.inr rfl

theorem quoteMark_not_mem_print {inside : Bool} {v : AttributeValue} (h : v.Printable inside) :
    quoteMark inside ∉ v.print := by
  cases v with
  | literal value =>
    cases inside with
    | false => exact h.2.1
    | true => exact h.2.2 rfl
  | markup nodes =>
    cases inside with
    | false => exact h.2.2.1
    | true => exact h.2.2.2 rfl

theorem read_text {inside : Bool} {value : String} (h : (Node.text value).Printable inside) :
    (Node.text value).Read inside := by
  intro offset rest hrest
  have hends := hrest rfl
  have hrun := textRun_printed h.2 hends
  have hnil : value.toList ≠ [] := by
    simpa using h.1
  have hne : value.toList ++ rest ≠ [] := List.append_ne_nil_of_left_ne_nil hnil rest
  have hopen : openMark.isPrefixOf (value.toList ++ rest) = false :=
    MarkFree.isPrefixOf (by decide) hnil hends h.2.1
  have hclose : closeMark.isPrefixOf (value.toList ++ rest) = false :=
    MarkFree.isPrefixOf (by decide) hnil hends h.2.2.1
  have hat : atTag (value.toList ++ rest) = false := by
    rw [atTag, hopen, hclose]
    rfl
  rw [Node.print, lex_of_text hne hat, hrun, String.ofList_toList]
  exact ⟨[.text value offset], _, fun _ _ => .text value offset, rfl⟩

mutual

theorem Node.read_of_printable {inside : Bool} :
    (n : Node) → n.Printable inside → n.Read inside
  | .text _, h => read_text h
  | .tag t, h => t.read_of_printable h

theorem Tag.read_of_printable {inside : Bool} :
    (t : Tag) → t.Printable inside → (Node.tag t).Read inside
  | { attributes, children, .. }, h =>
    Tag.read_printed h (attributes_read attributes h.2.2.2.1) (nodes_read children h.2.2.2.2.2)

theorem AttributeValue.means_of_printable {inside : Bool} :
    (v : AttributeValue) → v.Printable inside →
      ∀ a : RawAttribute, a.value = v.print → a.Means v
  | .literal value, h, a, ha => by
    rw [AttributeValue.print] at ha
    rw [RawAttribute.Means, ha, if_neg h.1, String.ofList_toList]
  | .markup nodes, h, a, ha => by
    rw [AttributeValue.print] at ha
    have hmark := h.2.1.elim fun t ht => openMark_infix_printNodes true ht
    rw [RawAttribute.Means, ha, if_pos hmark]
    refine ⟨nodes, rfl, compile_eq_ok_iff.2 ?_⟩
    rw [String.toList_ofList]
    exact (nodes_read nodes h.1).parse

theorem nodes_read {inside : Bool} :
    (ns : List Node) → NodesPrintable inside ns → NodesRead inside ns
  | [], _ => by
    intro offset rest _
    refine ⟨[], offset, .nil, ?_⟩
    rw [printNodes, List.nil_append]
    cases lex none offset rest <;> rfl
  | n :: ns, ⟨hn, hadjacent, hns⟩ => by
    intro offset rest hrest
    obtain ⟨ts, stop, hts, hlex⟩ := n.read_of_printable hn offset _ fun htext =>
      endsText_printNodes inside (hadjacent htext) hrest
    obtain ⟨ts', stop', hts', hlex'⟩ := nodes_read ns hns stop rest hrest
    refine ⟨ts ++ ts', stop', hts _ _ hts', ?_⟩
    rw [printNodes, List.append_assoc, hlex, hlex']
    cases lex none stop' rest <;> simp [Except.map]

theorem attributes_read {inside : Bool} :
    (as : List (String × AttributeValue)) → AttributesPrintable inside as →
      ∀ p ∈ as, AttributeRead inside p
  | [], _ => nofun
  | (_, v) :: as, ⟨hname, hv, has⟩ =>
    List.forall_mem_cons.2 ⟨⟨hname, quoteMark_not_mem_print hv, v.means_of_printable hv⟩,
      attributes_read as has⟩

end

/-- Compiling undoes printing. -/
theorem compile_printed {nodes : List Node} (h : NodesPrintable false nodes)
    (template : Option String) : compile (printed nodes) template = .ok nodes := by
  rw [compile_eq_ok_iff, printed, String.toList_ofList]
  exact (nodes_read nodes h).parse

def quotedSample : List Node :=
  [.text "1 < 2 <",
    .tag ⟨"box", some "ui.kit",
      [("title", .markup [.text "it's ", .tag ⟨"name", none, [("as", .literal "<b>")], [], true⟩]),
        ("note", .literal "it's")],
      [.text "x", .tag ⟨"end", none, [], [], true⟩], false⟩]

theorem compile_printed_quotedSample :
    NodesPrintable false quotedSample ∧ compile (printed quotedSample) none = .ok quotedSample := by
  have h : NodesPrintable false quotedSample := by
    simp [quotedSample, NodesPrintable, AttributesPrintable, Node.Printable, Tag.Printable,
      AttributeValue.Printable, MarkFree, Node.isText]
    decide
  exact ⟨h, compile_printed h none⟩

example : printed quotedSample =
    "1 < 2 <<pop:ui.kit:box title=\"it's <pop:name as='<b>'/>\"" ++
      " note=\"it's\">x<pop:end/></pop:ui.kit:box>" := by
  decide

end TagTemplate.Markup
