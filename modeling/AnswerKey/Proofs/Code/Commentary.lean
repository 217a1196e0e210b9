import AnswerKey.Code.Comment

namespace AnswerKey.Code

open Text

/-- Whether the first text of a line opens a comment. -/
def opensComment (style : CommentStyle) (line : Line) : Bool :=
  startsWith (trimStart line) style.line ||
    match style.block with
    | none => false
    | some (opener, _) => startsWith (trimStart line) opener

namespace Tracker

def after? (style : CommentStyle) : Tracker → List Line → Option Tracker
  | t, [] => some t
  | t, line :: lines => (t.feed? style line).bind fun (_, u) ↦ u.after? style lines

def classify? (style : CommentStyle) : Tracker → List Line → Option (List Bool)
  | _, [] => some []
  | t, line :: lines =>
    (t.feed? style line).bind fun (commentary, u) ↦ (u.classify? style lines).map (commentary :: ·)

variable {style : CommentStyle} {t u : Tracker} {line : Line} {front back lines : List Line}

theorem after?_cons_eq_some : t.after? style (line :: lines) = some u ↔
    ∃ commentary v, t.feed? style line = some (commentary, v) ∧ v.after? style lines = some u := by
  simp [after?, Option.bind_eq_some_iff]

theorem classify?_cons_eq_some {flags : List Bool} : t.classify? style (line :: lines) = some flags ↔
    ∃ commentary v rest, t.feed? style line = some (commentary, v) ∧
      v.classify? style lines = some rest ∧ flags = commentary :: rest := by
  simp only [classify?, Option.bind_eq_some_iff, Option.map_eq_some_iff, Prod.exists]
  constructor
  · intro h
    obtain ⟨c, v, hfeed, rest, hrest, rfl⟩ := h
    exact ⟨c, v, rest, hfeed, hrest, rfl⟩
  · intro h
    obtain ⟨c, v, rest, hfeed, hrest, rfl⟩ := h
    exact ⟨c, v, hfeed, rest, hrest, rfl⟩

theorem after?_append :
    t.after? style (front ++ back) = (t.after? style front).bind fun u ↦ u.after? style back := by
  induction front generalizing t with
  | nil => rfl
  | cons line front ih =>
    simp only [List.cons_append, after?, Option.bind_assoc]
    exact congrArg _ (funext fun p ↦ ih)

theorem after?_eq_none_iff : t.after? style lines = none ↔
    ∃ front line back u, lines = front ++ line :: back ∧ t.after? style front = some u ∧
      u.feed? style line = none := by
  constructor
  · intro h
    induction lines generalizing t with
    | nil => cases h
    | cons line lines ih =>
      cases hfeed : t.feed? style line with
      | none => exact ⟨[], line, lines, t, rfl, rfl, hfeed⟩
      | some r =>
        simp only [after?, hfeed, Option.bind_some] at h
        obtain ⟨front, stop, back, u, rfl, hu, hstop⟩ := ih h
        exact ⟨line :: front, stop, back, u, rfl, after?_cons_eq_some.mpr ⟨_, _, hfeed, hu⟩, hstop⟩
  · intro h
    obtain ⟨front, line, back, u, rfl, hu, hstop⟩ := h
    rw [after?_append, hu, Option.bind_some, after?, hstop, Option.bind_none]

theorem classify?_isSome : (t.classify? style lines).isSome = (t.after? style lines).isSome := by
  induction lines generalizing t with
  | nil => rfl
  | cons line lines ih =>
    cases h : t.feed? style line with
    | none => simp [classify?, after?, h]
    | some p => simpa [classify?, after?, h] using ih

theorem length_of_classify? {flags : List Bool} (h : t.classify? style lines = some flags) :
    flags.length = lines.length := by
  induction lines generalizing t flags with
  | nil =>
    cases h
    rfl
  | cons line lines ih =>
    obtain ⟨c, v, rest, -, hrest, rfl⟩ := classify?_cons_eq_some.mp h
    rw [List.length_cons, List.length_cons, ih hrest]

theorem classify?_append_eq_some {flags : List Bool} : t.classify? style (front ++ back) = some flags ↔
    ∃ first u rest, t.classify? style front = some first ∧ t.after? style front = some u ∧
      u.classify? style back = some rest ∧ flags = first ++ rest := by
  induction front generalizing t flags with
  | nil =>
    constructor
    · intro h
      exact ⟨[], t, flags, rfl, rfl, h, rfl⟩
    · intro h
      obtain ⟨first, u, rest, hfirst, hu, hrest, rfl⟩ := h
      cases hfirst
      cases hu
      exact hrest
  | cons line front ih =>
    rw [List.cons_append, classify?_cons_eq_some]
    constructor
    · intro h
      obtain ⟨c, v, others, hfeed, hothers, rfl⟩ := h
      obtain ⟨first, u, rest, hfirst, hu, hrest, rfl⟩ := ih.mp hothers
      exact ⟨c :: first, u, rest, classify?_cons_eq_some.mpr ⟨c, v, first, hfeed, hfirst, rfl⟩,
        after?_cons_eq_some.mpr ⟨c, v, hfeed, hu⟩, hrest, rfl⟩
    · intro h
      obtain ⟨first, u, rest, hfirst, hu, hrest, rfl⟩ := h
      obtain ⟨c, v, first', hfeed, hfirst', rfl⟩ := classify?_cons_eq_some.mp hfirst
      obtain ⟨c', v', hfeed', hu'⟩ := after?_cons_eq_some.mp hu
      obtain ⟨rfl, rfl⟩ := Prod.mk.inj (Option.some.inj (hfeed.symm.trans hfeed'))
      exact ⟨c, v, first' ++ rest, hfeed, ih.mpr ⟨first', u, rest, hfirst', hu', hrest, rfl⟩, rfl⟩

theorem classify?_front {t' : Tracker} {flags : List Bool} (h : t.classify? style (front ++ back) = some flags)
    (h' : t'.classify? style (front ++ back) = some flags) :
    ∃ first rest u u', t.classify? style front = some first ∧ t'.classify? style front = some first ∧
      t.after? style front = some u ∧ t'.after? style front = some u' ∧
      u.classify? style back = some rest ∧ u'.classify? style back = some rest := by
  obtain ⟨first, u, rest, hfirst, hu, hrest, rfl⟩ := classify?_append_eq_some.mp h
  obtain ⟨first', u', rest', hfirst', hu', hrest', hsame⟩ := classify?_append_eq_some.mp h'
  have hlength : first.length = first'.length := by
    rw [length_of_classify? hfirst, length_of_classify? hfirst']
  obtain ⟨rfl, rfl⟩ := List.append_inj hsame hlength
  exact ⟨first, rest, u, u', hfirst, hfirst', hu, hu', hrest, hrest'⟩

theorem feed?_of_block_none (h : style.block = none) :
    t.feed? style line = some (opensComment style line, t) := by
  simp [feed?, opensComment, h]

theorem after?_of_block_none (h : style.block = none) : t.after? style lines = some t := by
  induction lines with
  | nil => rfl
  | cons line lines ih => simp [after?, feed?_of_block_none h, ih]

theorem feed?_commentary {commentary : Bool} (hblock : style.block ≠ none)
    (h : t.feed? style line = some (commentary, u)) :
    commentary = (t.inBlock || opensComment style line) := by
  obtain ⟨⟨opener, closer⟩, hb⟩ := Option.ne_none_iff_exists'.mp hblock
  have hscan {o : Option Bool} {flag : Bool}
      (h : o.map (fun inBlock ↦ (flag, (⟨inBlock⟩ : Tracker))) = some (commentary, u)) : commentary = flag := by
    obtain ⟨_, _, he⟩ := Option.map_eq_some_iff.mp h
    exact (Prod.mk.inj he).1.symm
  have hknown {v : Tracker} {flag : Bool} (h : some (flag, v) = some (commentary, u)) : commentary = flag :=
    (Prod.mk.inj (Option.some.inj h)).1.symm
  simp only [feed?, hb] at h
  split at h
  · next hin =>
    rw [hin, Bool.true_or]
    split at h
    · exact hscan h
    · exact hknown h
  · next hin =>
    simp only [Bool.not_eq_true] at hin
    simp only [hin, Bool.false_or, opensComment, hb]
    split at h
    · next inner hopen =>
      have hs : startsWith (trimStart line) opener = true := by simp [startsWith, hopen]
      rw [hs, Bool.or_true]
      split at h
      · exact hscan h
      · exact hknown h
    · next hopen =>
      have hs : startsWith (trimStart line) opener = false := by simp [startsWith, hopen]
      rw [hs, Bool.or_false]
      split at h
      · next hline => exact hline ▸ hknown h
      · next hline =>
        rw [Bool.not_eq_true] at hline
        exact hline ▸ hscan h

/-- Trackers tell code and commentary apart alike exactly if every line at whose start they differ opens a
comment with its first text. -/
theorem classify?_eq_iff (hblock : style.block ≠ none) {t' : Tracker} {flags flags' : List Bool}
    (h : t.classify? style lines = some flags) (h' : t'.classify? style lines = some flags') :
    flags = flags' ↔ ∀ front line back, lines = front ++ line :: back →
      t.after? style front ≠ t'.after? style front → opensComment style line = true := by
  induction lines generalizing t t' flags flags' with
  | nil =>
    cases h
    cases h'
    simp
  | cons line lines ih =>
    obtain ⟨c, u, rest, hfeed, hrest, rfl⟩ := classify?_cons_eq_some.mp h
    obtain ⟨c', u', rest', hfeed', hrest', rfl⟩ := classify?_cons_eq_some.mp h'
    have hc := feed?_commentary hblock hfeed
    have hc' := feed?_commentary hblock hfeed'
    have hhead : c = c' ↔ (t ≠ t' → opensComment style line = true) := by
      rw [hc, hc']
      rcases t with ⟨_ | _⟩ <;> rcases t' with ⟨_ | _⟩ <;> simp
    rw [List.cons.injEq, hhead, ih hrest hrest']
    constructor
    · rintro ⟨hfirst, hothers⟩ front first back hsplit hne
      cases front with
      | nil =>
        obtain ⟨rfl, rfl⟩ := List.cons.inj hsplit
        exact hfirst fun he ↦ hne (by rw [he])
      | cons a front =>
        obtain ⟨rfl, rfl⟩ := List.cons.inj hsplit
        exact hothers front first back rfl (by simpa [after?, hfeed, hfeed'] using hne)
    · intro hall
      refine ⟨fun hne ↦ hall [] line lines rfl (by simpa [after?] using hne), ?_⟩
      intro front first back hsplit hne
      exact hall (line :: front) first back (by rw [hsplit]; rfl)
        (by simpa [after?, hfeed, hfeed'] using hne)

end Tracker
end AnswerKey.Code
