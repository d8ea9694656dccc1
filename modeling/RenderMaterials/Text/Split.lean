/-!
# Splitting

A text cut at separator characters, or after a lead.  The pieces between separators are never fewer
than one, and joining them with separators gives the text back.
-/

namespace RenderMaterials.Text

/-- What is left of a list after a lead. -/
def after? {α : Type} [DecidableEq α] : List α → List α → Option (List α)
  | [],      l      => some l
  | _ :: _,  []     => none
  | p :: ps, x :: l => if p = x then after? ps l else none

theorem after?_eq_some_iff {α : Type} [DecidableEq α] {p l r : List α} :
    after? p l = some r ↔ l = p ++ r := by
  induction p generalizing l with
  | nil => simp [after?]
  | cons x p ih =>
      cases l with
      | nil => simp [after?]
      | cons y l => by_cases h : x = y <;> simp [after?, h, ih, eq_comm (a := y)]

/-- Puts a character in front of the first piece. -/
def consPiece (c : Char) : List (List Char) → List (List Char)
  | []      => [[c]]
  | p :: ps => (c :: p) :: ps

/-- The pieces between separators, empty ones included. -/
def splitBy (sep : Char → Bool) : List Char → List (List Char)
  | []      => [[]]
  | c :: cs => if sep c then [] :: splitBy sep cs else consPiece c (splitBy sep cs)

theorem splitBy_ne_nil (sep : Char → Bool) (cs : List Char) : splitBy sep cs ≠ [] := by
  induction cs with
  | nil => simp [splitBy]
  | cons c cs ih =>
      cases h : sep c
      · cases e : splitBy sep cs with
        | nil => exact absurd e ih
        | cons p ps => simp [splitBy, h, e, consPiece]
      · simp [splitBy, h]

/-- No piece holds a separator. -/
theorem not_sep_of_mem_splitBy (sep : Char → Bool) (cs : List Char) :
    ∀ p ∈ splitBy sep cs, ∀ c ∈ p, sep c = false := by
  induction cs with
  | nil => simp [splitBy]
  | cons c cs ih =>
      cases h : sep c
      · cases e : splitBy sep cs with
        | nil => exact absurd e (splitBy_ne_nil sep cs)
        | cons p ps =>
            rw [e] at ih
            simp only [splitBy, h, e, consPiece, Bool.false_eq_true, ↓reduceIte]
            intro q hq d hd
            rcases List.mem_cons.1 hq with rfl | hq
            · rcases List.mem_cons.1 hd with rfl | hd
              · exact h
              · exact ih p (by simp) d hd
            · exact ih q (by simp [hq]) d hd
      · simp only [splitBy, h, ↓reduceIte]
        intro q hq d hd
        rcases List.mem_cons.1 hq with rfl | hq
        · simp at hd
        · exact ih q hq d hd

/-- A text without separators is one piece. -/
theorem splitBy_piece {sep : Char → Bool} {p : List Char} (h : ∀ c ∈ p, sep c = false) :
    splitBy sep p = [p] := by
  induction p with
  | nil => rfl
  | cons c p ih =>
      have hp := ih fun d hd => h d (by simp [hd])
      simp [splitBy, h c (by simp), hp, consPiece]

/-- A separator ends what is before it. -/
theorem splitBy_append {sep : Char → Bool} {c : Char} (hc : sep c = true) (a b : List Char) :
    splitBy sep (a ++ c :: b) = splitBy sep a ++ splitBy sep b := by
  induction a with
  | nil => simp [splitBy, hc]
  | cons d a ih =>
      cases hd : sep d with
      | true => simp [splitBy, hd, ih]
      | false =>
          cases hp : splitBy sep a with
          | nil => exact absurd hp (splitBy_ne_nil sep a)
          | cons p ps => simp [splitBy, hd, ih, hp, consPiece]

theorem splitBy_piece_append {sep : Char → Bool} {p cs : List Char} {c : Char}
    (h : ∀ d ∈ p, sep d = false) (hc : sep c = true) :
    splitBy sep (p ++ c :: cs) = p :: splitBy sep cs := by
  rw [splitBy_append hc, splitBy_piece h, List.singleton_append]

/-- Pieces put together with a separator are found again. -/
theorem splitBy_intercalate {sep : Char → Bool} {c : Char} (hc : sep c = true)
    {ps : List (List Char)} (hne : ps ≠ []) (h : ∀ p ∈ ps, ∀ d ∈ p, sep d = false) :
    splitBy sep ([c].intercalate ps) = ps := by
  induction ps with
  | nil => exact absurd rfl hne
  | cons p ps ih =>
      have hp := h p (by simp)
      cases ps with
      | nil => simpa using splitBy_piece hp
      | cons q ps =>
          have hq := ih (by simp) fun r hr => h r (by simp [hr])
          rw [List.intercalate_cons_cons, List.append_assoc, List.singleton_append,
            splitBy_piece_append hp hc, hq]

theorem intercalate_consPiece (sep : List Char) (e : Char) {ps : List (List Char)} (h : ps ≠ []) :
    sep.intercalate (consPiece e ps) = e :: sep.intercalate ps := by
  match ps, h with
  | [p], _ => simp [consPiece]
  | p :: q :: ps, _ => simp [consPiece, List.intercalate_cons_cons]

/-- The pieces of a text make the text, with separators between them. -/
theorem intercalate_splitBy (c : Char) (cs : List Char) :
    [c].intercalate (splitBy (· = c) cs) = cs := by
  induction cs with
  | nil => rfl
  | cons e cs ih =>
      have hne := splitBy_ne_nil (fun x => decide (x = c)) cs
      by_cases he : e = c
      · subst he
        obtain ⟨p, ps, hps⟩ := List.exists_cons_of_ne_nil hne
        rw [splitBy, if_pos (by simp), hps, List.intercalate_cons_cons, ← hps, ih]
        rfl
      · rw [splitBy, if_neg (by simpa using he), intercalate_consPiece _ _ hne, ih]

/-- The pieces of a string. -/
def pieces (sep : Char → Bool) (s : String) : List String :=
  (splitBy sep s.toList).map String.ofList

end RenderMaterials.Text
