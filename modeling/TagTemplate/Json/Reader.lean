import TagTemplate.Json.Grammar
import TagTemplate.Text.Split

/-!
# Reading JSON

Reading follows the grammar strictly: no trailing comma, no comment, no control character and no
unpaired surrogate in a string. It never fails: where the text is not as it should be, reading stops
and leaves `malformed` there. Every step that goes on leaves a shorter rest.
-/

namespace TagTemplate.Json

open TagTemplate.Text (length_dropWhile_le)

def skipSpace (cs : List Char) : List Char := cs.dropWhile isSpace

theorem length_skipSpace_le (cs : List Char) : (skipSpace cs).length ≤ cs.length :=
  length_dropWhile_le _ _

/-- What a step reads from `cs`: a value and a shorter rest, or the part of a value before the
place where reading stops. -/
inductive Reading (cs : List Char) (α : Type) where
  | done (value : α) (rest : List Char) (shorter : rest.length < cs.length)
  | cut (value : α)

def readLowSurrogate (high : Nat) : List Char → Option (Char × List Char)
  | '\\' :: 'u' :: a :: b :: c :: d :: r => do
    let low ← hexQuad? a b c d
    let x ← pairChar? high low
    return (x, r)
  | _ => none

def readCodeEscape : List Char → Option (Char × List Char)
  | a :: b :: c :: d :: r => do
    let n ← hexQuad? a b c d
    match unitChar? n with
    | some x => return (x, r)
    | none => readLowSurrogate n r
  | _ => none

def readEscape : List Char → Option (Char × List Char)
  | [] => none
  | c :: r =>
    if c = 'u' then readCodeEscape r
    else
      match shortEscape? c with
      | some x => some (x, r)
      | none => none

theorem length_readLowSurrogate {high : Nat} {cs r : List Char} {x : Char}
    (h : readLowSurrogate high cs = some (x, r)) : r.length < cs.length := by
  unfold readLowSurrogate at h
  split at h
  · simp only [Option.bind_eq_bind, Option.bind_eq_some_iff, pure, Option.some.injEq,
      Prod.mk.injEq] at h
    obtain ⟨_, -, _, -, -, rfl⟩ := h
    simp only [List.length_cons]
    omega
  · simp at h

theorem length_readCodeEscape {cs r : List Char} {x : Char}
    (h : readCodeEscape cs = some (x, r)) : r.length < cs.length := by
  unfold readCodeEscape at h
  split at h
  · simp only [Option.bind_eq_bind, Option.bind_eq_some_iff] at h
    obtain ⟨n, -, h⟩ := h
    split at h
    · simp only [pure, Option.some.injEq, Prod.mk.injEq] at h
      obtain ⟨-, rfl⟩ := h
      simp only [List.length_cons]
      omega
    · have := length_readLowSurrogate h
      simp only [List.length_cons]
      omega
  · simp at h

theorem length_readEscape {cs r : List Char} {x : Char} (h : readEscape cs = some (x, r)) :
    r.length < cs.length := by
  unfold readEscape at h
  split at h
  · simp at h
  · split at h
    · have := length_readCodeEscape h
      simp only [List.length_cons]
      omega
    · split at h
      · simp only [Option.some.injEq, Prod.mk.injEq] at h
        obtain ⟨-, rfl⟩ := h
        simp
      · simp at h

def readChars (cs : List Char) : Option (List Char × List Char) :=
  match cs with
  | [] => none
  | '"' :: r => some ([], r)
  | '\\' :: r =>
    match h : readEscape r with
    | none => none
    | some (x, r') =>
      have : r'.length < r.length := length_readEscape h
      (readChars r').map fun p => (x :: p.1, p.2)
  | c :: r => if c.toNat < 0x20 then none else (readChars r).map fun p => (c :: p.1, p.2)
termination_by cs.length
decreasing_by all_goals simp only [List.length_cons]; omega

theorem length_readChars {cs xs r : List Char} (h : readChars cs = some (xs, r)) :
    r.length < cs.length := by
  fun_induction readChars cs generalizing xs r with
  | case1 => simp at h
  | case2 => simp at h; simp [← h.2]
  | case3 => simp at h
  | case4 s x r' hx hlt ih =>
    obtain ⟨p, hp, he⟩ := Option.map_eq_some_iff.1 h
    have := ih hp
    simp only [Prod.mk.injEq] at he
    obtain ⟨-, rfl⟩ := he
    simp only [List.length_cons]
    omega
  | case5 => simp at h
  | case6 c s hq hb hc ih =>
    obtain ⟨p, hp, he⟩ := Option.map_eq_some_iff.1 h
    have := ih hp
    simp only [Prod.mk.injEq] at he
    obtain ⟨-, rfl⟩ := he
    simp only [List.length_cons]
    omega

def readDigits (cs : List Char) : Option (List Char × List Char) :=
  match cs.takeWhile Char.isDigit with
  | [] => none
  | ds => some (ds, cs.dropWhile Char.isDigit)

/-- The whole part of a number, and the rest. No zero stands before another digit. -/
def readWhole (cs : List Char) : Option (List Char × List Char) :=
  match readDigits cs with
  | some ('0' :: _ :: _, _) => none
  | p => p

def readFraction : List Char → Option (List Char × List Char)
  | '.' :: r => (readDigits r).map fun p => ('.' :: p.1, p.2)
  | cs => some ([], cs)

def readSigned : List Char → Option (List Char × List Char)
  | '-' :: r => (readDigits r).map fun p => ('-' :: p.1, p.2)
  | '+' :: r => (readDigits r).map fun p => ('+' :: p.1, p.2)
  | cs => readDigits cs

def readExponent : List Char → Option (List Char × List Char)
  | 'e' :: r => (readSigned r).map fun p => ('e' :: p.1, p.2)
  | 'E' :: r => (readSigned r).map fun p => ('E' :: p.1, p.2)
  | cs => some ([], cs)

def digitsValue (ds : List Char) : Nat := ds.foldl (fun n c => 10 * n + (c.toNat - 0x30)) 0

/-- A number, read after its minus sign if it is negative, and the rest. A number ends where its
grammar ends, whatever follows. -/
def readMagnitude (negative : Bool) (cs : List Char) : Option (Json × List Char) := do
  let (whole, r) ← readWhole cs
  let (places, r) ← readFraction r
  let (exponent, r) ← readExponent r
  if places.isEmpty && exponent.isEmpty then
    let n : Int := digitsValue whole
    return (.integer (if negative then -n else n), r)
  else
    let sign := if negative then ['-'] else []
    return (.fraction (String.ofList (sign ++ whole ++ places ++ exponent)), r)

/-- A number or a word, and the rest. A word ends with its last letter, whatever follows. -/
def readScalar : List Char → Option (Json × List Char)
  | 'n' :: 'u' :: 'l' :: 'l' :: r => some (.null, r)
  | 't' :: 'r' :: 'u' :: 'e' :: r => some (.bool true, r)
  | 'f' :: 'a' :: 'l' :: 's' :: 'e' :: r => some (.bool false, r)
  | '-' :: r => readMagnitude true r
  | cs => readMagnitude false cs

theorem length_readDigits {cs ds r : List Char} (h : readDigits cs = some (ds, r)) :
    r.length < cs.length := by
  unfold readDigits at h
  split at h
  · simp at h
  · next hne =>
    simp only [Option.some.injEq, Prod.mk.injEq] at h
    obtain ⟨-, rfl⟩ := h
    cases cs with
    | nil => simp at hne
    | cons c cs =>
      by_cases hc : c.isDigit
      · have := length_dropWhile_le Char.isDigit cs
        simp only [List.dropWhile_cons, hc, if_true, List.length_cons]
        omega
      · simp [hc] at hne

theorem length_readWhole {cs ds r : List Char} (h : readWhole cs = some (ds, r)) :
    r.length < cs.length := by
  unfold readWhole at h
  split at h
  · simp at h
  · exact length_readDigits h

theorem length_readFraction {cs ds r : List Char} (h : readFraction cs = some (ds, r)) :
    r.length ≤ cs.length := by
  unfold readFraction at h
  split at h
  · obtain ⟨p, hp, he⟩ := Option.map_eq_some_iff.1 h
    have := length_readDigits hp
    simp only [Prod.mk.injEq] at he
    obtain ⟨-, rfl⟩ := he
    simp only [List.length_cons]
    omega
  · simp only [Option.some.injEq, Prod.mk.injEq] at h
    simp [h.2]

theorem length_readSigned {cs ds r : List Char} (h : readSigned cs = some (ds, r)) :
    r.length < cs.length := by
  unfold readSigned at h
  split at h
  case h_3 => exact length_readDigits h
  all_goals
    obtain ⟨p, hp, he⟩ := Option.map_eq_some_iff.1 h
    have := length_readDigits hp
    simp only [Prod.mk.injEq] at he
    obtain ⟨-, rfl⟩ := he
    simp only [List.length_cons]
    omega

theorem length_readExponent {cs ds r : List Char} (h : readExponent cs = some (ds, r)) :
    r.length ≤ cs.length := by
  unfold readExponent at h
  split at h
  case h_3 =>
    simp only [Option.some.injEq, Prod.mk.injEq] at h
    simp [h.2]
  all_goals
    obtain ⟨p, hp, he⟩ := Option.map_eq_some_iff.1 h
    have := length_readSigned hp
    simp only [Prod.mk.injEq] at he
    obtain ⟨-, rfl⟩ := he
    simp only [List.length_cons]
    omega

theorem length_readMagnitude {negative : Bool} {cs r : List Char} {v : Json}
    (h : readMagnitude negative cs = some (v, r)) : r.length < cs.length := by
  simp only [readMagnitude, Option.bind_eq_bind, Option.bind_eq_some_iff] at h
  obtain ⟨⟨_, r₁⟩, h₁, ⟨_, r₂⟩, h₂, ⟨_, r₃⟩, h₃, h⟩ := h
  have hr : r₃ = r := by
    split at h <;> simp only [pure, Option.some.injEq, Prod.mk.injEq] at h <;> exact h.2
  calc r.length = r₃.length := by rw [hr]
    _ ≤ r₂.length := length_readExponent h₃
    _ ≤ r₁.length := length_readFraction h₂
    _ < cs.length := length_readWhole h₁

theorem length_readScalar {cs r : List Char} {v : Json} (h : readScalar cs = some (v, r)) :
    r.length < cs.length := by
  unfold readScalar at h
  split at h
  case h_4 =>
    have := length_readMagnitude h
    simp only [List.length_cons]
    omega
  case h_5 => exact length_readMagnitude h
  all_goals
    simp only [Option.some.injEq, Prod.mk.injEq] at h
    obtain ⟨-, rfl⟩ := h
    simp only [List.length_cons]
    omega

mutual

def readValue (cs : List Char) : Reading cs Json :=
  match h : skipSpace cs with
  | [] => .cut (.malformed none)
  | '"' :: r =>
    match hr : readChars r with
    | none => .cut (.malformed (some '"'))
    | some (xs, r') => .done (.string (String.ofList xs)) r' (by
        have := length_readChars hr
        have := length_skipSpace_le cs
        simp only [h, List.length_cons] at this
        omega)
  | '[' :: r =>
    have hr : r.length < cs.length := by
      have := length_skipSpace_le cs
      simp only [h, List.length_cons] at this
      omega
    match hs : skipSpace r with
    | ']' :: r' => .done (.array []) r' (by
        have := length_skipSpace_le r
        simp only [hs, List.length_cons] at this
        omega)
    | _ =>
      match readItems r with
      | .done vs r' h' => .done (.array vs) r' (Nat.lt_trans h' hr)
      | .cut vs => .cut (.array vs)
  | '\x7b' :: r =>
    have hr : r.length < cs.length := by
      have := length_skipSpace_le cs
      simp only [h, List.length_cons] at this
      omega
    match hs : skipSpace r with
    | '\x7d' :: r' => .done (.object []) r' (by
        have := length_skipSpace_le r
        simp only [hs, List.length_cons] at this
        omega)
    | _ =>
      match readMembers r with
      | .done ms r' h' => .done (.object ms) r' (Nat.lt_trans h' hr)
      | .cut ms => .cut (.object ms)
  | c :: r =>
    match hr : readScalar (c :: r) with
    | none => .cut (.malformed (some c))
    | some (v, r') => .done v r' (by
        have := length_readScalar hr
        have := length_skipSpace_le cs
        rw [h] at this
        omega)
termination_by (cs.length, 0)
decreasing_by all_goals exact Prod.Lex.left _ _ hr

def readItems (cs : List Char) : Reading cs (List Json) :=
  match readValue cs with
  | .cut v => .cut [v]
  | .done v r h =>
    match hs : skipSpace r with
    | ',' :: r' =>
      have hr : r'.length < cs.length := by
        have := length_skipSpace_le r
        simp only [hs, List.length_cons] at this
        omega
      match readItems r' with
      | .done vs r'' h' => .done (v :: vs) r'' (Nat.lt_trans h' hr)
      | .cut vs => .cut (v :: vs)
    | ']' :: r' => .done [v] r' (by
        have := length_skipSpace_le r
        simp only [hs, List.length_cons] at this
        omega)
    | _ => .cut [v, .malformed none]
termination_by (cs.length, 1)
decreasing_by
  · exact Prod.Lex.right _ (by decide)
  · exact Prod.Lex.left _ _ hr

def readMembers (cs : List Char) : Reading cs (List (String × Json)) :=
  match h : skipSpace cs with
  | '"' :: r =>
    match hr : readChars r with
    | none => .cut [("", .malformed none)]
    | some (xs, r₁) =>
      match hc : skipSpace r₁ with
      | ':' :: r₂ =>
        have h₂ : r₂.length < cs.length := by
          have := length_readChars hr
          have hc' := length_skipSpace_le r₁
          have hs' := length_skipSpace_le cs
          simp only [hc, h, List.length_cons] at hc' hs'
          omega
        match readValue r₂ with
        | .cut v => .cut [(String.ofList xs, v)]
        | .done v r₃ h₃ =>
          match hs : skipSpace r₃ with
          | ',' :: r₄ =>
            have h₄ : r₄.length < cs.length := by
              have := length_skipSpace_le r₃
              simp only [hs, List.length_cons] at this
              omega
            match readMembers r₄ with
            | .done ms r₅ h₅ => .done ((String.ofList xs, v) :: ms) r₅ (Nat.lt_trans h₅ h₄)
            | .cut ms => .cut ((String.ofList xs, v) :: ms)
          | '\x7d' :: r₄ => .done [(String.ofList xs, v)] r₄ (by
              have := length_skipSpace_le r₃
              simp only [hs, List.length_cons] at this
              omega)
          | _ => .cut [(String.ofList xs, v), ("", .malformed none)]
      | _ => .cut [("", .malformed none)]
  | _ => .cut [("", .malformed none)]
termination_by (cs.length, 1)
decreasing_by
  · exact Prod.Lex.left _ _ h₂
  · exact Prod.Lex.left _ _ h₄

end

def readText (cs : List Char) : Json × Bool :=
  match readValue cs with
  | .done v rest _ => (v, (skipSpace rest).isEmpty)
  | .cut v => (v, false)

def parse? (s : String) : Option Json :=
  match readText s.toList with
  | (v, true) => some v
  | (_, false) => none

end TagTemplate.Json
