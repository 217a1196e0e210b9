import AnswerKey.Text.Blank

namespace AnswerKey.Text

def after? : (piece text : List Char) → Option (List Char)
  | [], text => some text
  | _ :: _, [] => none
  | a :: piece, b :: text => if a = b then after? piece text else none

def startsWith (text piece : List Char) : Bool := (after? piece text).isSome

def before? (piece text : List Char) : Option (List Char) :=
  (after? piece.reverse text.reverse).map List.reverse

theorem after?_eq_some_iff {piece text rest : List Char} :
    after? piece text = some rest ↔ text = piece ++ rest := by
  induction piece generalizing text with
  | nil => simp [after?]
  | cons a piece ih =>
    cases text with
    | nil => simp [after?]
    | cons b text =>
      by_cases h : a = b
      · simp [after?, h, ih]
      · simp [after?, h, Ne.symm h]

theorem after?_append (piece rest : List Char) : after? piece (piece ++ rest) = some rest :=
  after?_eq_some_iff.2 rfl

theorem length_of_after? {piece text rest : List Char} (h : after? piece text = some rest) :
    text.length = piece.length + rest.length := by
  rw [after?_eq_some_iff.1 h, List.length_append]

def cut? (piece : List Char) : (text : List Char) → Option (List Char × List Char)
  | [] => (after? piece []).map fun rest ↦ ([], rest)
  | c :: text =>
    match after? piece (c :: text) with
    | some rest => some ([], rest)
    | none => (cut? piece text).map fun (front, rest) ↦ (c :: front, rest)

def contains (text piece : List Char) : Bool := (cut? piece text).isSome

def replaceFirst (piece new text : List Char) : List Char :=
  match cut? piece text with
  | some (front, rest) => front ++ new ++ rest
  | none => text

theorem cut?_eq_some {piece text front rest : List Char} (h : cut? piece text = some (front, rest)) :
    text = front ++ piece ++ rest := by
  induction text generalizing front with
  | nil =>
    simp only [cut?, Option.map_eq_some_iff, Prod.mk.injEq] at h
    obtain ⟨r, hr, rfl, rfl⟩ := h
    simpa using after?_eq_some_iff.1 hr
  | cons c text ih =>
    simp only [cut?] at h
    split at h
    · next r hr =>
      simp only [Option.some.injEq, Prod.mk.injEq] at h
      obtain ⟨rfl, rfl⟩ := h
      simpa using after?_eq_some_iff.1 hr
    · simp only [Option.map_eq_some_iff, Prod.mk.injEq, Prod.exists] at h
      obtain ⟨front', rest', hcut, rfl, rfl⟩ := h
      simp [ih hcut]

theorem replaceFirst_self (piece text : List Char) : replaceFirst piece piece text = text := by
  unfold replaceFirst
  split
  · next h => exact (cut?_eq_some h).symm
  · rfl

theorem length_of_cut? {piece text front rest : List Char} (h : cut? piece text = some (front, rest)) :
    text.length = front.length + piece.length + rest.length := by
  rw [cut?_eq_some h]
  simp [Nat.add_assoc]

/-- Every occurrence of `piece` exchanged for `new`, from left to right; an empty piece occurs nowhere. -/
def replace (piece new text : List Char) : List Char :=
  if piece.isEmpty then text else
  match _ : cut? piece text with
  | none => text
  | some (front, rest) => front ++ new ++ replace piece new rest
termination_by text.length
decreasing_by
  have := length_of_cut? ‹_›
  cases piece with
  | nil => contradiction
  | cons a p => simp only [List.length_cons] at this; omega

def splitOn (separator : Char) : (text : List Char) → List (List Char)
  | [] => [[]]
  | c :: text =>
    if c = separator then [] :: splitOn separator text
    else
      match splitOn separator text with
      | [] => [[c]]
      | piece :: pieces => (c :: piece) :: pieces

def byteLength (text : List Char) : Nat := text.foldr (fun c n ↦ c.utf8Size + n) 0

def join (separator : List Char) (pieces : List (List Char)) : List Char := separator.intercalate pieces

end AnswerKey.Text
