import AnswerKey.Proofs.Dialect.Indentation
import Mathlib.Data.List.TakeWhile

namespace AnswerKey

open Text Code Reading

variable {text rest w : Line} {n k : Nat}

section

variable {p : Char → Bool} {c : Char}

theorem mem_dropWhile (hc : c ∈ text) (hp : p c = false) : c ∈ text.dropWhile p := by
  rw [← List.takeWhile_append_dropWhile (p := p) (l := text), List.mem_append] at hc
  rcases hc with hc | hc
  · rw [List.mem_takeWhile_imp hc] at hp
    cases hp
  · exact hc

theorem dropWhile_append_of_mem (hc : c ∈ text) (hp : p c = false) (w : Line) :
    (text ++ w).dropWhile p = text.dropWhile p ++ w := by
  have hne : (text.dropWhile p).isEmpty = false := by
    rw [List.isEmpty_eq_false_iff]
    exact List.ne_nil_of_mem (mem_dropWhile hc hp)
  rw [List.dropWhile_append, hne]
  rfl

theorem takeWhile_append_of_mem (hc : c ∈ text) (hp : p c = false) (w : Line) :
    (text ++ w).takeWhile p = text.takeWhile p := by
  have h : (text ++ w).takeWhile p ++ (text.dropWhile p ++ w) = text.takeWhile p ++ (text.dropWhile p ++ w) := by
    rw [← dropWhile_append_of_mem hc hp, List.takeWhile_append_dropWhile, dropWhile_append_of_mem hc hp,
      ← List.append_assoc, List.takeWhile_append_dropWhile]
  exact List.append_cancel_right h

end

theorem trimStart_append_right (h : '(' ∈ text) (w : Line) : trimStart (text ++ w) = trimStart text ++ w :=
  dropWhile_append_of_mem h (by decide) w

theorem paren_mem_trimStart (h : '(' ∈ text) : '(' ∈ trimStart text := mem_dropWhile h (by decide)

theorem upTo_append_right (line rest w : Line) : upTo (line ++ w) (rest ++ w) = upTo line rest := by
  rw [upTo, upTo, List.length_append, List.length_append, Nat.add_sub_add_right,
    List.take_append_of_le_length (Nat.sub_le _ _)]

theorem after?_append_right {word : Line} (hword : '(' ∉ word) (h : '(' ∈ text) (w : Line) :
    after? word (text ++ w) = (after? word text).map (· ++ w) := by
  induction word generalizing text with
  | nil => rfl
  | cons a word ih =>
    rw [List.mem_cons, not_or] at hword
    cases text with
    | nil => cases h
    | cons b text =>
      simp only [after?, List.cons_append]
      split
      · next hab =>
        rcases List.mem_cons.mp h with hb | h
        · exact absurd (hb.trans hab.symm) hword.1
        · exact ih hword.2 h
      · rfl

theorem paren_mem_of_after? {word : Line} (hword : '(' ∉ word) (h : '(' ∈ text) (hrest : after? word text = some rest) :
    '(' ∈ rest := by
  rw [after?_eq_some_iff.mp hrest, List.mem_append] at h
  exact h.resolve_left hword

theorem blanks?_append_right (h : '(' ∈ text) (w : Line) : blanks? (text ++ w) = (blanks? text).map (· ++ w) := by
  cases text with
  | nil => cases h
  | cons c text =>
    simp only [blanks?, List.cons_append]
    split
    · next hc =>
      rcases List.mem_cons.mp h with rfl | h
      · exact absurd hc (by decide)
      · rw [trimStart_append_right h]
        rfl
    · rfl

theorem paren_mem_of_blanks? (h : '(' ∈ text) (hrest : blanks? text = some rest) : '(' ∈ rest := by
  cases text with
  | nil => cases h
  | cons c text =>
    simp only [blanks?] at hrest
    split at hrest
    · next hc =>
      obtain rfl := Option.some.inj hrest
      rcases List.mem_cons.mp h with rfl | h
      · exact absurd hc (by decide)
      · exact paren_mem_trimStart h
    · cases hrest

section

variable {word : String}

theorem keyword?_append_right (hword : '(' ∉ word.toList) (h : '(' ∈ text) (w : Line) :
    keyword? word (text ++ w) = (keyword? word text).map (· ++ w) := by
  rw [keyword?, keyword?, after?_append_right hword h]
  cases hafter : after? word.toList text with
  | none => rfl
  | some rest => exact blanks?_append_right (paren_mem_of_after? hword h hafter) w

theorem paren_mem_of_keyword? (hword : '(' ∉ word.toList) (h : '(' ∈ text) (hrest : keyword? word text = some rest) :
    '(' ∈ rest := by
  obtain ⟨_, hafter, hblanks⟩ := Option.bind_eq_some_iff.mp hrest
  exact paren_mem_of_blanks? (paren_mem_of_after? hword h hafter) hblanks

theorem length_of_keyword? (hrest : keyword? word text = some rest) : rest.length < text.length := by
  obtain ⟨after, hafter, hblanks⟩ := Option.bind_eq_some_iff.mp hrest
  have hle := (isSuffix_of_after? hafter).length_le
  cases after with
  | nil => cases hblanks
  | cons c after =>
    simp only [blanks?] at hblanks
    split at hblanks
    · obtain rfl := Option.some.inj hblanks
      have := (List.dropWhile_suffix (l := after) isBlank).length_le
      simp only [List.length_cons] at hle
      exact Nat.lt_of_le_of_lt this hle
    · cases hblanks

theorem findSome?_eq_map {α β γ : Type} {items : List α} {f : α → Option γ} {f' : α → Option β} {g : β → γ}
    (h : ∀ a ∈ items, f a = (f' a).map g) : items.findSome? f = (items.findSome? f').map g := by
  induction items with
  | nil => rfl
  | cons a items ih =>
    rw [List.forall_mem_cons] at h
    rw [List.findSome?_cons, List.findSome?_cons, h.1, ih h.2]
    cases f' a <;> rfl

theorem findSome?_keyword?_append_right {words : List String} (hwords : ∀ word ∈ words, '(' ∉ word.toList)
    (h : '(' ∈ text) (w : Line) :
    words.findSome? (keyword? · (text ++ w)) = (words.findSome? (keyword? · text)).map (· ++ w) :=
  findSome?_eq_map fun word hword ↦ keyword?_append_right (hwords word hword) h w

theorem exists_keyword?_of_findSome? {words : List String} (h : words.findSome? (keyword? · text) = some rest) :
    ∃ word ∈ words, keyword? word text = some rest := by
  obtain ⟨word, hword, hrest⟩ := List.exists_of_findSome?_eq_some h
  exact ⟨word, hword, hrest⟩

theorem openParen?_append_right (h : '(' ∈ text) (w : Line) :
    openParen? (text ++ w) = (openParen? text).map (· ++ w) := by
  rw [openParen?, openParen?, trimStart_append_right h]
  obtain ⟨c, rest, hcons⟩ := List.exists_cons_of_ne_nil (List.ne_nil_of_mem (paren_mem_trimStart h))
  simp only [hcons, List.cons_append, after?]
  split <;> rfl

theorem run?_append_right {p : Char → Bool} (hp : p '(' = false) (h : '(' ∈ text) (w : Line) :
    run? p (text ++ w) = (run? p text).map fun (run, rest) ↦ (run, rest ++ w) := by
  rw [run?, run?, takeWhile_append_of_mem h hp, dropWhile_append_of_mem h hp]
  split <;> rfl

theorem rest_of_run? {p : Char → Bool} {run : Line} (h : run? p text = some (run, rest)) :
    rest = text.dropWhile p := by
  unfold run? at h
  split at h
  · cases h
  · cases h
    rfl

end

namespace Java

theorem leadingModifiers_append_right (h : '(' ∈ text) (hn : text.length ≤ n) (hk : n ≤ k) (w : Line) :
    leadingModifiers k (text ++ w) = leadingModifiers n text ++ w ∧ '(' ∈ leadingModifiers n text := by
  induction n generalizing text k with
  | zero => exact absurd (List.length_pos_of_mem h) (Nat.not_lt.mpr hn)
  | succ n ih =>
    obtain ⟨k, rfl⟩ := Nat.exists_eq_add_of_le' (Nat.le_trans (Nat.le_add_left 1 n) hk)
    have hwords : ∀ word ∈ ["public", "private", "protected", "final", "synchronized"], '(' ∉ word.toList := by decide
    simp only [leadingModifiers, findSome?_keyword?_append_right hwords h]
    cases hfind : ["public", "private", "protected", "final", "synchronized"].findSome? (keyword? · text) with
    | none => exact ⟨rfl, h⟩
    | some rest =>
      obtain ⟨word, hword, hrest⟩ := exists_keyword?_of_findSome? hfind
      have hlength := length_of_keyword? hrest
      exact ih (paren_mem_of_keyword? (hwords word hword) h hrest) (by omega) (by omega)

theorem modifierRests_append_right (h : '(' ∈ text) (hn : text.length ≤ n) (hk : n ≤ k) (w : Line) :
    modifierRests k (text ++ w) = (modifierRests n text).map (· ++ w) ∧ ∀ rest ∈ modifierRests n text, '(' ∈ rest := by
  induction n generalizing text k with
  | zero => exact absurd (List.length_pos_of_mem h) (Nat.not_lt.mpr hn)
  | succ n ih =>
    obtain ⟨k, rfl⟩ := Nat.exists_eq_add_of_le' (Nat.le_trans (Nat.le_add_left 1 n) hk)
    have hwords : ∀ word ∈ ["final", "synchronized"], '(' ∉ word.toList := by decide
    simp only [modifierRests, findSome?_keyword?_append_right hwords h]
    cases hfind : ["final", "synchronized"].findSome? (keyword? · text) with
    | none => exact ⟨rfl, List.forall_mem_singleton.mpr h⟩
    | some rest =>
      obtain ⟨word, hword, hrest⟩ := exists_keyword?_of_findSome? hfind
      have hlength := length_of_keyword? hrest
      obtain ⟨heq, hmem⟩ :=
        ih (paren_mem_of_keyword? (hwords word hword) h hrest) (k := k) (by omega) (by omega)
      refine ⟨?_, List.forall_mem_append.mpr ⟨hmem, List.forall_mem_singleton.mpr h⟩⟩
      simp only [Option.map_some, heq, List.map_append, List.map_cons, List.map_nil]

theorem typeArgumentRests_append_right (h : '(' ∈ text) (w : Line) :
    typeArgumentRests (text ++ w) = (typeArgumentRests text).map (· ++ w) ∧
      ∀ rest ∈ typeArgumentRests text, '(' ∈ rest := by
  induction text with
  | nil => cases h
  | cons c text ih =>
    simp only [typeArgumentRests, List.cons_append]
    split
    · exact ⟨rfl, List.forall_mem_nil _⟩
    · next hc =>
      rw [not_or] at hc
      have h : '(' ∈ text := (List.mem_cons.mp h).resolve_left (Ne.symm hc.1)
      obtain ⟨heq, hmem⟩ := ih h
      split
      · refine ⟨by rw [heq, List.map_append]; rfl, List.forall_mem_append.mpr ⟨hmem, List.forall_mem_singleton.mpr h⟩⟩
      · exact ⟨heq, hmem⟩

theorem skipArrayBrackets_append_right (h : '(' ∈ text) (hn : text.length ≤ n) (hk : n ≤ k) (w : Line) :
    skipArrayBrackets k (text ++ w) = skipArrayBrackets n text ++ w ∧ '(' ∈ skipArrayBrackets n text := by
  induction n generalizing text k with
  | zero => exact absurd (List.length_pos_of_mem h) (Nat.not_lt.mpr hn)
  | succ n ih =>
    obtain ⟨k, rfl⟩ := Nat.exists_eq_add_of_le' (Nat.le_trans (Nat.le_add_left 1 n) hk)
    have hword : '(' ∉ ['[', ']'] := by decide
    have htrim := paren_mem_trimStart h
    simp only [skipArrayBrackets, trimStart_append_right h, after?_append_right hword htrim]
    cases hafter : after? ['[', ']'] (trimStart text) with
    | none => exact ⟨rfl, h⟩
    | some rest =>
      have hlength := length_of_after? hafter
      have hle : (trimStart text).length ≤ text.length := (List.dropWhile_suffix _).length_le
      simp only [List.length_cons, List.length_nil] at hlength
      exact ih (paren_mem_of_after? hword htrim hafter) (by omega) (by omega)

theorem typeRests_append_right (h : '(' ∈ text) (w : Line) :
    typeRests (text ++ w) = (typeRests text).map (· ++ w) ∧ ∀ rest ∈ typeRests text, '(' ∈ rest := by
  have hp : isTypeChar '(' = false := by decide
  have hword : '(' ∉ ['<'] := by decide
  have hskip {rests : List Line} (hrests : ∀ rest ∈ rests, '(' ∈ rest) :
      (rests.map (· ++ w)).map (fun rest ↦ skipArrayBrackets rest.length rest) =
        (rests.map fun rest ↦ skipArrayBrackets rest.length rest).map (· ++ w) ∧
      ∀ rest ∈ rests.map fun rest ↦ skipArrayBrackets rest.length rest, '(' ∈ rest := by
    rw [List.map_map, List.map_map, List.forall_mem_map]
    have hone := fun rest hrest ↦
      skipArrayBrackets_append_right (hrests rest hrest) (Nat.le_refl _) (List.prefix_append rest w).length_le w
    exact ⟨List.map_congr_left fun rest hrest ↦ (hone rest hrest).1, fun rest hrest ↦ (hone rest hrest).2⟩
  unfold typeRests
  rw [run?_append_right hp h]
  cases hrun : run? isTypeChar text with
  | none => exact ⟨rfl, List.forall_mem_nil _⟩
  | some named =>
    obtain ⟨run, rest⟩ := named
    have hrest : '(' ∈ rest := rest_of_run? hrun ▸ mem_dropWhile h hp
    have htrim := paren_mem_trimStart hrest
    simp only [Option.map_some, trimStart_append_right hrest, after?_append_right hword htrim]
    cases hafter : after? ['<'] (trimStart rest) with
    | none => exact hskip (List.forall_mem_singleton.mpr hrest)
    | some inner =>
      obtain ⟨heq, hmem⟩ := typeArgumentRests_append_right (paren_mem_of_after? hword htrim hafter) w
      simp only [Option.map_some, heq]
      exact hskip hmem

theorem declaredName?_append_right (h : '(' ∈ text) (w : Line) :
    declaredName? (text ++ w) = (declaredName? text).map fun (name, rest) ↦ (name, rest ++ w) := by
  have hp : isWord '(' = false := by decide
  unfold declaredName?
  rw [blanks?_append_right h]
  cases hblanks : blanks? text with
  | none => rfl
  | some named =>
    have hnamed := paren_mem_of_blanks? h hblanks
    simp only [Option.map_some, Option.bind_some, run?_append_right hp hnamed]
    cases hrun : run? isWord named with
    | none => rfl
    | some found =>
      obtain ⟨name, rest⟩ := found
      have hrest : '(' ∈ rest := rest_of_run? hrun ▸ mem_dropWhile hnamed hp
      simp only [Option.map_some, Option.bind_some, openParen?_append_right hrest, Option.map_map]
      rfl

theorem declaration?_append_right (h : '(' ∈ text) (w : Line) :
    declaration? (text ++ w) = (declaration? text).map fun (type, name, rest) ↦ (type, name, rest ++ w) := by
  obtain ⟨heq, hmem⟩ := typeRests_append_right h w
  unfold declaration?
  rw [heq, List.findSome?_map]
  refine findSome?_eq_map fun rest hrest ↦ ?_
  simp only [Function.comp_apply, declaredName?_append_right (hmem rest hrest), upTo_append_right, Option.map_map,
    Function.comp_def]

/-- What follows the opening parenthesis of a line makes no difference to the heading that is read. -/
theorem methodHeading?_append_right {line : Line} (h : '(' ∈ line) (w : Line) :
    methodHeading? (line ++ w) = methodHeading? line := by
  have htrim := paren_mem_trimStart h
  obtain ⟨hmodifiers, hmem⟩ :=
    leadingModifiers_append_right htrim (Nat.le_refl _) (List.prefix_append _ w).length_le w
  have hword : '(' ∉ "static".toList := by decide
  unfold methodHeading?
  simp only [trimStart_append_right h, hmodifiers, keyword?_append_right hword hmem]
  cases hstatic : keyword? "static" (leadingModifiers (trimStart line).length (trimStart line)) with
  | none => rfl
  | some rest =>
    have hrest := paren_mem_of_keyword? hword hmem hstatic
    obtain ⟨heq, hmem⟩ := modifierRests_append_right hrest (Nat.le_refl _) (List.prefix_append rest w).length_le w
    have hfind : (modifierRests (rest ++ w).length (rest ++ w)).findSome? declaration? =
        ((modifierRests rest.length rest).findSome? declaration?).map fun (type, name, rest) ↦
          (type, name, rest ++ w) := by
      rw [heq, List.findSome?_map]
      exact findSome?_eq_map fun rest hrest ↦ declaration?_append_right (hmem rest hrest) w
    simp only [Option.map_some, Option.bind_some, hfind, Option.map_map, Function.comp_def, upTo_append_right]

theorem isSuffix_leadingModifiers (n : Nat) (text : Line) : leadingModifiers n text <:+ text := by
  induction n generalizing text with
  | zero => exact List.suffix_rfl
  | succ n ih =>
    simp only [leadingModifiers]
    split
    · next rest hfind =>
      obtain ⟨word, -, hrest⟩ := exists_keyword?_of_findSome? hfind
      exact (ih rest).trans (isSuffix_of_keyword? hrest)
    · exact List.suffix_rfl

theorem isSuffix_of_mem_modifierRests (h : rest ∈ modifierRests n text) : rest <:+ text := by
  induction n generalizing text with
  | zero =>
    rw [List.mem_singleton.mp h]
  | succ n ih =>
    simp only [modifierRests] at h
    split at h
    · next after hfind =>
      obtain ⟨word, -, hafter⟩ := exists_keyword?_of_findSome? hfind
      rcases List.mem_append.mp h with h | h
      · exact (ih h).trans (isSuffix_of_keyword? hafter)
      · rw [List.mem_singleton.mp h]
    · rw [List.mem_singleton.mp h]

theorem isSuffix_of_mem_typeArgumentRests (h : rest ∈ typeArgumentRests text) : rest <:+ text := by
  induction text with
  | nil => cases h
  | cons c text ih =>
    simp only [typeArgumentRests] at h
    split at h
    · cases h
    · split at h
      · rcases List.mem_append.mp h with h | h
        · exact (ih h).trans (List.suffix_cons c text)
        · rw [List.mem_singleton.mp h]
          exact List.suffix_cons c text
      · exact (ih h).trans (List.suffix_cons c text)

theorem isSuffix_skipArrayBrackets (n : Nat) (text : Line) : skipArrayBrackets n text <:+ text := by
  induction n generalizing text with
  | zero => exact List.suffix_rfl
  | succ n ih =>
    simp only [skipArrayBrackets]
    split
    · next rest hafter =>
      exact ((ih rest).trans (isSuffix_of_after? hafter)).trans (List.dropWhile_suffix _)
    · exact List.suffix_rfl

theorem isSuffix_of_mem_typeRests (h : rest ∈ typeRests text) : rest <:+ text := by
  unfold typeRests at h
  split at h
  · cases h
  · next run after hrun =>
    have hafter : after <:+ text := rest_of_run? hrun ▸ List.dropWhile_suffix _
    obtain ⟨named, hnamed, rfl⟩ := List.mem_map.mp h
    apply (isSuffix_skipArrayBrackets _ named).trans
    split at hnamed
    · next inner hinner =>
      exact (((isSuffix_of_mem_typeArgumentRests hnamed).trans (isSuffix_of_after? hinner)).trans
        (List.dropWhile_suffix _)).trans hafter
    · rw [List.mem_singleton.mp hnamed]
      exact hafter

theorem paren_mem_of_declaredName? {found : Line × Line} (h : declaredName? text = some found) : '(' ∈ text := by
  obtain ⟨named, hblanks, h⟩ := Option.bind_eq_some_iff.mp h
  obtain ⟨⟨name, rest⟩, hrun, h⟩ := Option.bind_eq_some_iff.mp h
  obtain ⟨after, hparen, -⟩ := Option.map_eq_some_iff.mp h
  have hrest : trimStart rest <:+ text := by
    rw [rest_of_run? hrun]
    exact ((List.dropWhile_suffix _).trans (List.dropWhile_suffix _)).trans (isSuffix_of_blanks? hblanks)
  apply hrest.subset
  rw [after?_eq_some_iff.mp hparen]
  exact List.mem_cons_self

theorem paren_mem_of_methodHeading? {line : Line} {heading : Heading} (h : methodHeading? line = some heading) :
    '(' ∈ line := by
  obtain ⟨rest, hstatic, h⟩ := Option.bind_eq_some_iff.mp h
  obtain ⟨found, hfind, -⟩ := Option.map_eq_some_iff.mp h
  obtain ⟨behind, hbehind, hdeclaration⟩ := List.exists_of_findSome?_eq_some hfind
  obtain ⟨named, hnamed, hname⟩ := List.exists_of_findSome?_eq_some hdeclaration
  obtain ⟨declared, hdeclared, -⟩ := Option.map_eq_some_iff.mp hname
  have hline : named <:+ line := (((isSuffix_of_mem_typeRests hnamed).trans
    (isSuffix_of_mem_modifierRests hbehind)).trans
    (isSuffix_of_keyword? hstatic)).trans ((isSuffix_leadingModifiers _ _).trans (List.dropWhile_suffix _))
  exact hline.subset (paren_mem_of_declaredName? hdeclared)

theorem functionStart_read?_append {line : Line} (h : '(' ∈ line) (w : Line) :
    functionStart.read? (line ++ w) = functionStart.read? line := by
  simp only [functionStart, methodHeading?_append_right h]

theorem paren_mem_of_functionStart {line : Line} {heading : Heading} (h : functionStart.read? line = some heading) :
    '(' ∈ line :=
  paren_mem_of_methodHeading? (Option.filter_eq_some_iff.mp h).1

end Java

end AnswerKey
