/-!
# Cutting texts

A text is cut at every occurrence of a character, or where a run of characters ends. What is left
over is never longer than the text.
-/

namespace TagTemplate.Text

/-- The pieces between the characters `c`; without any `c` the text is the only piece. -/
def pieces (c : Char) : List Char → List (List Char)
  | [] => [[]]
  | x :: xs =>
    if x = c then [] :: pieces c xs
    else
      match pieces c xs with
      | [] => [[x]]
      | piece :: rest => (x :: piece) :: rest

theorem pieces_ne_nil (c : Char) (cs : List Char) : pieces c cs ≠ [] := by
  cases cs with
  | nil => simp [pieces]
  | cons x xs =>
    unfold pieces
    split
    · simp
    · split <;> simp

theorem length_dropWhile_le {α : Type} (p : α → Bool) (l : List α) :
    (l.dropWhile p).length ≤ l.length :=
  (List.dropWhile_sublist p).length_le

end TagTemplate.Text
