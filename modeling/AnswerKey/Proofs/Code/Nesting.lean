import AnswerKey.Proofs.Code.Arguments
import AnswerKey.Proofs.Text.Pieces

namespace AnswerKey.Code

open Text

def Mode.opened (mode : Mode) (text : List Char) : Nat :=
  mode.count '(' text + mode.count '[' text + mode.count '\x7b' text

def Mode.closed (mode : Mode) (text : List Char) : Nat :=
  mode.count ')' text + mode.count ']' text + mode.count '\x7d' text

/-- A text that closes the brackets open in front of it and its own, none of them before it was opened, and that ends
outside literals. -/
structure Nested (depth : Nat) (mode : Mode) (text : List Char) : Prop where
  ends : mode.after text = .code
  matched : mode.closed text = mode.opened text + depth
  partnered : ∀ front, front <+: text → mode.closed front ≤ mode.opened front + depth

def Closes (c : Char) : Prop := c = ')' ∨ c = ']' ∨ c = '\x7d'

instance : DecidablePred Closes := fun _ ↦ inferInstanceAs (Decidable (_ ∨ _ ∨ _))

section

variable {depth k : Nat} {mode : Mode} {c : Char} {s t text : List Char}

theorem bracketDepth_count (h : ¬ (mode = .code ∧ Closes c ∧ depth = 0)) (front : List Char) :
    (mode.closed (c :: front) : Int) - (mode.opened (c :: front) + depth) =
      (mode.next c).closed front - ((mode.next c).opened front + bracketDepth mode depth c) := by
  simp only [Mode.closed, Mode.opened, Mode.count, bracketDepth]
  by_cases hmode : mode = .code
  · by_cases hclose : Closes c
    · have hdepth : depth ≠ 0 := fun hdepth ↦ h ⟨hmode, hclose, hdepth⟩
      rcases hclose with rfl | rfl | rfl <;> simp [hmode] <;> omega
    · by_cases hopen : c = '(' ∨ c = '[' ∨ c = '\x7b'
      · rcases hopen with rfl | rfl | rfl <;> simp [hmode] <;> omega
      · simp only [Closes, not_or] at hclose hopen
        simp [hmode, hclose, hopen]
  · simp [hmode]

theorem nested_nil : Nested depth mode [] ↔ mode = .code ∧ depth = 0 := by
  constructor
  · rintro ⟨hends, hmatched, -⟩
    exact ⟨hends, by simpa [Mode.closed, Mode.opened, Mode.count] using hmatched.symm⟩
  · rintro ⟨rfl, rfl⟩
    exact ⟨rfl, rfl, by simp [Mode.closed, Mode.opened, Mode.count]⟩

theorem nested_cons : Nested depth mode (c :: text) ↔
    ¬ (mode = .code ∧ Closes c ∧ depth = 0) ∧ Nested (bracketDepth mode depth c) (mode.next c) text := by
  by_cases hclose : mode = .code ∧ Closes c ∧ depth = 0
  · refine iff_of_false (fun hnested ↦ ?_) fun hnested ↦ hnested.1 hclose
    obtain ⟨rfl, hc, rfl⟩ := hclose
    have hpartnered := hnested.partnered [c] (by simp)
    rcases hc with rfl | rfl | rfl <;> simp [Mode.closed, Mode.opened, Mode.count] at hpartnered
  · rw [and_iff_right hclose]
    have hcount := bracketDepth_count hclose
    constructor
    · rintro ⟨hends, hmatched, hpartnered⟩
      refine ⟨hends, ?_, fun front hfront ↦ ?_⟩
      · have := hcount text
        omega
      · have := hpartnered (c :: front) ((List.prefix_cons_inj c).mpr hfront)
        have := hcount front
        omega
    · rintro ⟨hends, hmatched, hpartnered⟩
      refine ⟨hends, ?_, fun front hfront ↦ ?_⟩
      · have := hcount text
        omega
      · rcases List.prefix_cons_iff.mp hfront with rfl | ⟨front, rfl, htext⟩
        · simp [Mode.closed, Mode.opened, Mode.count]
        · have := hpartnered front htext
          have := hcount front
          omega

instance Nested.decide : (depth : Nat) → (mode : Mode) → (text : List Char) → Decidable (Nested depth mode text)
  | _, _, [] => decidable_of_iff _ nested_nil.symm
  | depth, mode, c :: text =>
    have := Nested.decide (bracketDepth mode depth c) (mode.next c) text
    decidable_of_iff _ nested_cons.symm

theorem bracketDepth_add (h : ¬ (mode = .code ∧ Closes c ∧ depth = 0)) (k : Nat) :
    bracketDepth mode (depth + k) c = bracketDepth mode depth c + k := by
  simp only [bracketDepth]
  split
  · next hmode =>
    split
    · omega
    · split
      · next hclose =>
        have hdepth : depth ≠ 0 := fun hdepth ↦ h ⟨hmode, hclose, hdepth⟩
        omega
      · rfl
  · rfl

theorem Nested.append (hs : Nested depth mode s) (ht : Nested k .code t) : Nested (depth + k) mode (s ++ t) := by
  induction s generalizing depth mode with
  | nil =>
    obtain ⟨rfl, rfl⟩ := nested_nil.mp hs
    rwa [Nat.zero_add]
  | cons c s ih =>
    obtain ⟨hclose, hs⟩ := nested_cons.mp hs
    refine nested_cons.mpr ⟨fun ⟨hmode, hc, hdepth⟩ ↦ hclose ⟨hmode, hc, by omega⟩, ?_⟩
    rw [bracketDepth_add hclose]
    exact ih hs

theorem Nested.append_balanced (hs : Nested 0 mode s) (ht : Nested 0 .code t) : Nested 0 mode (s ++ t) := hs.append ht

/-- The character is neither a bracket nor a quote nor a comma, so it makes no difference to what follows. -/
def IsPlain (c : Char) : Prop := isQuote c = false ∧ c ≠ ',' ∧ ¬ Closes c ∧ bracketDepth .code 0 c = 0

instance : DecidablePred IsPlain := fun _ ↦ inferInstanceAs (Decidable (_ ∧ _ ∧ _ ∧ _))

theorem IsPlain.bracketDepth_eq (hc : IsPlain c) (depth : Nat) : bracketDepth .code depth c = depth := by
  have hadd : bracketDepth .code (0 + depth) c = bracketDepth .code 0 c + depth :=
    bracketDepth_add (fun h ↦ hc.2.2.1 h.2.1) depth
  rwa [hc.2.2.2, Nat.zero_add] at hadd

theorem IsPlain.next_eq (hc : IsPlain c) : Mode.next .code c = .code := by
  simp [Mode.next, hc.1]

def marks : List Char := [doubleQuote, singleQuote, backQuote, ',', '(', ')', '[', ']', '\x7b', '\x7d']

theorem isPlain_of_notMem_marks (h : c ∉ marks) : IsPlain c := by
  simp only [marks, List.mem_cons, List.not_mem_nil, or_false, not_or] at h
  simp [IsPlain, isQuote, Closes, bracketDepth, h]

theorem isPlain_of_marks {p : Char → Bool} (hmarks : marks.any p = false) (hc : p c = true) : IsPlain c := by
  apply isPlain_of_notMem_marks
  intro hmem
  exact List.any_eq_false.mp hmarks c hmem hc

theorem isPlain_of_isBlank (hc : isBlank c = true) : IsPlain c := isPlain_of_marks (by decide) hc

def Mode.IsProper : Mode → Prop
  | .code => True
  | .literal quote _ => isQuote quote = true

theorem Mode.isProper_code : Mode.code.IsProper := trivial

theorem Mode.IsProper.next (hm : mode.IsProper) (c : Char) : (mode.next c).IsProper := by
  rcases mode with - | ⟨quote, - | -⟩
  · by_cases hc : isQuote c = true
    · simp [Mode.next, hc, Mode.IsProper]
    · simp [Mode.next, hc, Mode.IsProper]
  · simp only [Mode.next]
    split
    · exact hm
    · split
      · trivial
      · exact hm
  · exact hm

theorem Mode.eq_code_of_next (hm : mode.IsProper) (hc : isQuote c = false) (h : mode.next c = .code) :
    mode = .code := by
  rcases mode with - | ⟨quote, - | -⟩
  · rfl
  · simp only [Mode.next] at h
    split at h
    · cases h
    · split at h
      · next hquote =>
        have hproper : isQuote quote = true := hm
        rw [← hquote, hc] at hproper
        cases hproper
      · cases h
  · cases h

theorem eq_code_of_nested_blank (hm : mode.IsProper) (ht : isBlankLine t = true) (h : Nested depth mode t) :
    mode = .code ∧ depth = 0 := by
  induction t generalizing depth mode with
  | nil => exact nested_nil.mp h
  | cons c t ih =>
    simp only [isBlankLine, List.all_cons, Bool.and_eq_true] at ht
    have hplain := isPlain_of_isBlank ht.1
    obtain ⟨hnext, hdepth⟩ := ih (hm.next c) ht.2 (nested_cons.mp h).2
    obtain rfl := Mode.eq_code_of_next hm hplain.1 hnext
    rw [hplain.bracketDepth_eq] at hdepth
    exact ⟨rfl, hdepth⟩

end

def attach (front : List Char) : List (List Char) → List (List Char)
  | [] => [front]
  | piece :: pieces => (front ++ piece) :: pieces

section

variable {depth : Nat} {mode : Mode} {c : Char} {s t text front piece : List Char} {pieces : List (List Char)}

theorem attach_attach : attach s (attach t pieces) = attach (s ++ t) pieces := by
  cases pieces <;> simp [attach]

theorem segments_ne_nil (depth : Nat) (mode : Mode) (text : List Char) : segments depth mode text ≠ [] := by
  cases text with
  | nil => simp [segments]
  | cons c text =>
    simp only [segments]
    split
    · simp
    · split <;> simp

theorem attach_nil (h : pieces ≠ []) : attach [] pieces = pieces := by
  cases pieces with
  | nil => exact absurd rfl h
  | cons piece pieces => rfl

theorem segments_comma (text : List Char) : segments 0 .code (',' :: text) = [] :: segments 0 .code text := by
  simp [segments]

theorem segments_cons (h : ¬ (mode = .code ∧ c = ',' ∧ depth = 0)) :
    segments depth mode (c :: text) = attach [c] (segments (bracketDepth mode depth c) (mode.next c) text) := by
  rw [segments, if_neg h]
  cases segments (bracketDepth mode depth c) (mode.next c) text <;> rfl

/-- A nested text with no comma outside brackets and literals. -/
structure Undivided (depth : Nat) (mode : Mode) (text : List Char) : Prop where
  nested : Nested depth mode text
  whole : segments depth mode text = [text]

instance : Decidable (Undivided depth mode text) :=
  decidable_of_iff (Nested depth mode text ∧ segments depth mode text = [text])
    ⟨fun h ↦ ⟨h.1, h.2⟩, fun h ↦ ⟨h.1, h.2⟩⟩

theorem undivided_nil : Undivided depth mode [] ↔ mode = .code ∧ depth = 0 :=
  ⟨fun h ↦ nested_nil.mp h.nested, fun h ↦ ⟨nested_nil.mpr h, rfl⟩⟩

theorem undivided_cons : Undivided depth mode (c :: text) ↔
    ¬ (mode = .code ∧ c = ',' ∧ depth = 0) ∧ ¬ (mode = .code ∧ Closes c ∧ depth = 0) ∧
      Undivided (bracketDepth mode depth c) (mode.next c) text := by
  by_cases hcomma : mode = .code ∧ c = ',' ∧ depth = 0
  · refine iff_of_false (fun h ↦ ?_) fun h ↦ h.1 hcomma
    obtain ⟨rfl, rfl, rfl⟩ := hcomma
    have hwhole := h.whole
    rw [segments_comma] at hwhole
    cases hwhole
  · rw [and_iff_right hcomma]
    constructor
    · rintro ⟨hnested, hwhole⟩
      obtain ⟨hclose, hnested⟩ := nested_cons.mp hnested
      refine ⟨hclose, hnested, ?_⟩
      rw [segments_cons hcomma] at hwhole
      cases hpieces : segments (bracketDepth mode depth c) (mode.next c) text with
      | nil => exact absurd hpieces (segments_ne_nil _ _ _)
      | cons piece pieces =>
        rw [hpieces] at hwhole
        simp only [attach, List.singleton_append, List.cons.injEq, true_and] at hwhole
        rw [hwhole.1, hwhole.2]
    · rintro ⟨hclose, hnested, hwhole⟩
      refine ⟨nested_cons.mpr ⟨hclose, hnested⟩, ?_⟩
      rw [segments_cons hcomma, hwhole]
      rfl

theorem segments_append (hs : Undivided depth mode s) (t : List Char) :
    segments depth mode (s ++ t) = attach s (segments 0 .code t) := by
  induction s generalizing depth mode with
  | nil =>
    obtain ⟨rfl, rfl⟩ := undivided_nil.mp hs
    exact (attach_nil (segments_ne_nil _ _ _)).symm
  | cons c s ih =>
    obtain ⟨hcomma, -, hs⟩ := undivided_cons.mp hs
    rw [List.cons_append, segments_cons hcomma, ih hs, attach_attach]
    rfl

theorem Undivided.append (hs : Undivided depth mode s) (ht : Undivided 0 .code t) : Undivided depth mode (s ++ t) := by
  refine ⟨hs.nested.append ht.nested, ?_⟩
  rw [segments_append hs, ht.whole]
  rfl

theorem undivided_of_nested (hs : Nested depth mode s) (ht : Undivided 1 .code t) :
    Undivided (depth + 1) mode (s ++ t) := by
  induction s generalizing depth mode with
  | nil =>
    obtain ⟨rfl, rfl⟩ := nested_nil.mp hs
    exact ht
  | cons c s ih =>
    obtain ⟨hclose, hs⟩ := nested_cons.mp hs
    refine undivided_cons.mpr ⟨fun h ↦ Nat.succ_ne_zero depth h.2.2, fun h ↦ Nat.succ_ne_zero depth h.2.2, ?_⟩
    rw [bracketDepth_add hclose]
    exact ih hs

theorem undivided_parenthesized (h : Nested 0 .code text) : Undivided 0 .code ('(' :: (text ++ [')'])) :=
  undivided_cons.mpr ⟨by decide, by decide, undivided_of_nested h (by decide)⟩

theorem undivided_bracketed (h : Nested 0 .code text) : Undivided 0 .code ('[' :: (text ++ [']'])) :=
  undivided_cons.mpr ⟨by decide, by decide, undivided_of_nested h (by decide)⟩

theorem undivided_plain_append (hs : ∀ c ∈ s, IsPlain c) :
    Undivided depth .code (s ++ t) ↔ Undivided depth .code t := by
  induction s with
  | nil => rfl
  | cons c s ih =>
    obtain ⟨hc, hs⟩ := List.forall_mem_cons.mp hs
    rw [List.cons_append, undivided_cons, hc.bracketDepth_eq, hc.next_eq, ih hs]
    exact ⟨fun h ↦ h.2.2, fun h ↦ ⟨fun hcomma ↦ hc.2.1 hcomma.2.1, fun hclose ↦ hc.2.2.1 hclose.2.1, h⟩⟩

theorem isPlain_of_isBlankLine {w : List Char} (hw : isBlankLine w = true) : ∀ c ∈ w, IsPlain c :=
  fun c hc ↦ isPlain_of_isBlank (isBlank_of_mem hw c hc)

theorem undivided_of_append_blank {w : List Char} (hm : mode.IsProper) (hw : isBlankLine w = true)
    (h : Undivided depth mode (s ++ w)) : Undivided depth mode s := by
  induction s generalizing depth mode with
  | nil => exact undivided_nil.mpr (eq_code_of_nested_blank hm hw h.nested)
  | cons c s ih =>
    obtain ⟨hcomma, hclose, h⟩ := undivided_cons.mp h
    exact undivided_cons.mpr ⟨hcomma, hclose, ih (hm.next c) h⟩

theorem Undivided.trim (h : Undivided 0 .code text) : Undivided 0 .code (trim text) := by
  obtain ⟨w, w', hw, hw', htext⟩ := exists_eq_append_trim text
  rw [htext] at h
  rw [undivided_plain_append (isPlain_of_isBlankLine hw)] at h
  exact undivided_of_append_blank trivial hw' h

/-- The pieces of a nested text are nested, and none of them is cut any further. -/
theorem undivided_of_segments (h : Nested depth mode text) (hpieces : segments depth mode text = piece :: pieces) :
    Undivided depth mode piece ∧ ∀ p ∈ pieces, Undivided 0 .code p := by
  induction text generalizing depth mode piece pieces with
  | nil =>
    cases hpieces
    exact ⟨undivided_nil.mpr (nested_nil.mp h), List.forall_mem_nil _⟩
  | cons c text ih =>
    obtain ⟨hclose, hnested⟩ := nested_cons.mp h
    by_cases hcomma : mode = .code ∧ c = ',' ∧ depth = 0
    · obtain ⟨rfl, rfl, rfl⟩ := hcomma
      rw [segments_comma] at hpieces
      obtain ⟨rfl, rfl⟩ := List.cons.inj hpieces
      refine ⟨undivided_nil.mpr ⟨rfl, rfl⟩, ?_⟩
      cases hrest : segments 0 .code text with
      | nil => exact List.forall_mem_nil _
      | cons piece pieces => exact List.forall_mem_cons.mpr (ih hnested hrest)
    · rw [segments_cons hcomma] at hpieces
      cases hrest : segments (bracketDepth mode depth c) (mode.next c) text with
      | nil => exact absurd hrest (segments_ne_nil _ _ _)
      | cons first rest =>
        rw [hrest] at hpieces
        obtain ⟨rfl, rfl⟩ := List.cons.inj hpieces
        obtain ⟨hfirst, hothers⟩ := ih hnested hrest
        exact ⟨undivided_cons.mpr ⟨hcomma, hclose, hfirst⟩, hothers⟩

end

section

variable {args arg text : List Char} {pieces : List (List Char)}

/-- An argument by itself: one piece, without blanks around it. -/
structure IsArgument (arg : List Char) : Prop where
  undivided : Undivided 0 .code arg
  trimmed : trim arg = arg
  nonempty : arg ≠ []

theorem mem_of_mem_dropEmptyLast {piece : List Char} (h : piece ∈ dropEmptyLast pieces) : piece ∈ pieces := by
  unfold dropEmptyLast at h
  split at h
  · exact List.dropLast_subset _ h
  · exact h

theorem isArgument_of_mem_splitArguments (h : Nested 0 .code args) (hne : [] ∉ splitArguments args)
    (harg : arg ∈ splitArguments args) : IsArgument arg := by
  obtain ⟨segment, hsegment, rfl⟩ := List.mem_map.mp (mem_of_mem_dropEmptyLast harg)
  refine ⟨Undivided.trim ?_, trim_trim segment, fun hnil ↦ hne (hnil ▸ harg)⟩
  cases hpieces : segments 0 .code args with
  | nil => exact absurd hpieces (segments_ne_nil _ _ _)
  | cons first rest =>
    rw [hpieces] at hsegment
    exact List.forall_mem_cons.mpr (undivided_of_segments h hpieces) segment hsegment

theorem dropEmptyLast_eq_self (h : ∀ piece ∈ pieces, piece ≠ []) : dropEmptyLast pieces = pieces := by
  refine if_neg fun hlast ↦ ?_
  exact h [] (List.mem_of_getLast? hlast) rfl

theorem dropEmptyLast_concat_nil (pieces : List (List Char)) : dropEmptyLast (pieces ++ [[]]) = pieces := by
  simp [dropEmptyLast]

theorem splitArguments_of_isArgument (h : IsArgument arg) : splitArguments arg = [arg] := by
  rw [splitArguments, h.undivided.whole, List.map_singleton, h.trimmed]
  exact dropEmptyLast_eq_self (by simp [h.nonempty])

theorem nested_join (h : ∀ arg ∈ pieces, IsArgument arg) : Nested 0 .code (join ", ".toList pieces) := by
  induction pieces with
  | nil => exact nested_nil.mpr ⟨rfl, rfl⟩
  | cons first rest ih =>
    obtain ⟨hfirst, hrest⟩ := List.forall_mem_cons.mp h
    cases rest with
    | nil =>
      rw [join, List.intercalate_singleton]
      exact hfirst.undivided.nested
    | cons second rest =>
      have hcomma : Nested 0 .code ", ".toList := by decide
      rw [join_cons_cons]
      exact hfirst.undivided.nested.append (hcomma.append (ih hrest))

end

end AnswerKey.Code
